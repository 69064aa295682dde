import Mathlib.Data.List.Nodup
import ChipEight.Proofs.Keypad.Keys
import ChipEight.Proofs.Machine.KeyHistory
import ChipEight.Proofs.Session.Batches

/-!
# What events stand for

An event brings at most one batch of operations to the machine.  A key of the
keyboard that lies under the keypad sets the key above it, and the key that
restarts brings a reset together with the loading of the program.

No two keys of the keyboard lie under the same key of the keypad, so what sets
a key of the keypad are the presses and releases of one key of the keyboard.
-/

namespace ChipEight

namespace Machine

/-- Whether an operation brings something to the machine from outside. -/
def Operation.isInput : Operation → Bool
  | setKey _ _ | reset | load _ | loadFrom _ => true
  | _ => false

def bringsInput (batch : List Operation) : Bool :=
  batch.any Operation.isInput

theorem bringsInput_of_mem {operation : Operation} {batch : List Operation}
    (input : operation.isInput = true) (member : operation ∈ batch) :
    bringsInput batch = true :=
  List.any_eq_true.mpr ⟨operation, member, input⟩

/-- Keys are set by nothing but what comes from outside. -/
theorem filter_sets_flatten (key : UInt8) (batches : List (List Operation)) :
    batches.flatten.filter (Operation.sets key) =
      (batches.filter bringsInput).flatten.filter (Operation.sets key) := by
  induction batches with
  | nil => rfl
  | cons batch rest ih =>
      rw [List.flatten_cons, List.filter_append, ih]
      by_cases input : bringsInput batch = true
      · rw [List.filter_cons_of_pos input, List.flatten_cons,
          List.filter_append]
      · have unset : batch.filter (Operation.sets key) = [] := by
          rw [List.filter_eq_nil_iff]
          intro operation within sets
          obtain ⟨down, rfl⟩ := setKey_of_sets sets
          exact input (bringsInput_of_mem rfl within)
        rw [List.filter_cons_of_neg input, unset, List.nil_append]

end Machine

/-! ### The keys of the keyboard -/

namespace HostKey

theorem mem_of_lookup {host : HostKey} {key : UInt8}
    {layout : List (HostKey × UInt8)} (found : layout.lookup host = some key) :
    (host, key) ∈ layout := by
  obtain ⟨before, after, rfl, _⟩ := List.lookup_eq_some_iff.mp found
  simp

/-- The keys that restart and quit are not laid under the keypad. -/
theorem lookup_of_command {host : HostKey}
    (control : host.name = "Backspace" ∨ host.name = "Escape") :
    keypadLayout.lookup host = none := by
  obtain ⟨name⟩ := host
  rcases control with rfl | rfl
  · decide
  · decide

theorem command?_eq_key_iff {host : HostKey} {key : UInt8} :
    host.command? = some (.key key) ↔ keypadLayout.lookup host = some key := by
  rw [command?]
  split
  case isTrue restarts => simp [lookup_of_command (.inl restarts)]
  case isFalse =>
    split
    case isTrue quits => simp [lookup_of_command (.inr quits)]
    case isFalse => simp

/-- Every key of the keypad lies under exactly one key of the keyboard, since
the layout leaves none out and gives none twice. -/
theorem exists_host {key : UInt8} (named : key.toNat < keyCount) :
    ∃ host : HostKey, ∀ other : HostKey,
      keypadLayout.lookup other = some key ↔ other = host := by
  have covered : ∀ key ∈ Keypad.keys, key ∈ keypadLayout.map Prod.snd := by
    decide +kernel
  have found : ∀ entry ∈ keypadLayout,
      keypadLayout.lookup entry.1 = some entry.2 := by
    decide
  have distinct : (keypadLayout.map Prod.snd).Nodup := by decide
  obtain ⟨⟨host, _⟩, listed, rfl⟩ :=
    List.mem_map.mp (covered key ((Keypad.mem_keys_iff key).mpr named))
  refine ⟨host, ?_⟩
  intro other
  constructor
  · intro lies
    have same :=
      List.inj_on_of_nodup_map distinct (mem_of_lookup lies) listed rfl
    exact congrArg Prod.fst same
  · rintro rfl
    exact found _ listed

end HostKey

/-! ### What an event stands for -/

namespace Event

def quits : Event → Bool
  | keyDown (some host) false => host.name = "Escape"
  | closed => true
  | _ => false

/-- What an event brings to the machine: one batch of operations or none. -/
def input (program : List UInt8) : Event → List (List Machine.Operation)
  | keyDown (some host) false =>
    if host.name = "Backspace" then
      [[.reset, .load program]]
    else
      (HostKey.keypadLayout.lookup host).toList.map fun key =>
        [.setKey key true]
  | keyUp (some host) =>
    (HostKey.keypadLayout.lookup host).toList.map fun key =>
      [.setKey key false]
  | _ => []

/-- Whether an event is a press or a release of a key of the keyboard. -/
def concerns (host : HostKey) (event : Event) : Bool :=
  event = keyDown (some host) false || event = keyUp (some host)

def isPress : Event → Bool
  | keyDown _ _ => true
  | _ => false

/-- What is done about a key of the keyboard that controls nothing. -/
def setting (host : HostKey) (down : Bool) : Action :=
  ((HostKey.keypadLayout.lookup host).map fun key =>
    Action.setKey key down).getD .nothing

theorem action_press (host : HostKey) :
    (keyDown (some host) false).action =
      if host.name = "Backspace" then .restart
      else if host.name = "Escape" then .quit
      else setting host true := by
  simp only [action, commandOf, Option.bind_some, HostKey.command?]
  split
  · rfl
  · split
    · rfl
    · rw [Option.map_map]
      rfl

theorem action_lift (host : HostKey) :
    (keyUp (some host)).action = setting host false := by
  simp only [action, commandOf, Option.bind_some, HostKey.command?, setting]
  split
  case isTrue restarts =>
    rw [HostKey.lookup_of_command (.inl restarts)]
    rfl
  case isFalse =>
    split
    case isTrue quits =>
      rw [HostKey.lookup_of_command (.inr quits)]
      rfl
    case isFalse =>
      rw [Option.map_map]
      rfl

theorem setting_ne_quit (host : HostKey) (down : Bool) :
    setting host down ≠ .quit := by
  rw [setting]
  cases HostKey.keypadLayout.lookup host with
  | none => simp
  | some key => simp

/-- The events that stand for something: presses and lifts of keys that have a
name, and the closing of the window. -/
inductive Form : Event → Prop
  | press (host : HostKey) : Form (keyDown (some host) false)
  | lift (host : HostKey) : Form (keyUp (some host))
  | closed : Form closed
  | idle {event : Event} (nothing : event.action = .nothing)
      (stays : event.quits = false)
      (unheard : ∀ program, event.input program = [])
      (unconcerned : ∀ host, event.concerns host = false) : Form event

theorem form (event : Event) : event.Form := by
  cases event with
  | keyDown key repeated =>
      cases repeated with
      | true =>
          exact .idle rfl (by simp [quits]) (by simp [input])
            (by simp [concerns])
      | false =>
          cases key with
          | none => exact .idle rfl rfl (fun _ => rfl) (by simp [concerns])
          | some host => exact .press host
  | keyUp key =>
      cases key with
      | none => exact .idle rfl rfl (fun _ => rfl) (by simp [concerns])
      | some host => exact .lift host
  | closed => exact .closed
  | other => exact .idle rfl rfl (fun _ => rfl) (by simp [concerns])

theorem action_eq_quit_iff (event : Event) :
    event.action = .quit ↔ event.quits = true := by
  cases event.form with
  | press host =>
      rw [action_press, quits]
      by_cases restarts : host.name = "Backspace"
      · simp [restarts]
      · by_cases ends : host.name = "Escape"
        · simp [ends]
        · simp [restarts, ends, setting_ne_quit]
  | lift host => simp [action_lift, setting_ne_quit, quits]
  | closed => simp [action, quits]
  | idle nothing stays => simp [nothing, stays]

theorem filter_batch_setting (program : List UInt8) (host : HostKey)
    (down : Bool) :
    [(setting host down).batch program].filter Machine.bringsInput =
      (HostKey.keypadLayout.lookup host).toList.map fun key =>
        [.setKey key down] := by
  rw [setting]
  cases HostKey.keypadLayout.lookup host with
  | none => rfl
  | some key => rfl

theorem filter_batch_action (program : List UInt8) (event : Event) :
    [event.action.batch program].filter Machine.bringsInput =
      event.input program := by
  cases event.form with
  | press host =>
      rw [action_press, input]
      split
      case isTrue => rfl
      case isFalse =>
        split
        case isTrue quits =>
          rw [HostKey.lookup_of_command (.inr quits)]
          rfl
        case isFalse => exact filter_batch_setting program host true
  | lift host =>
      rw [action_lift]
      exact filter_batch_setting program host false
  | closed => rfl
  | idle nothing _ unheard =>
      rw [nothing, unheard]
      rfl

/-! ### The events of one key -/

section OneKey

variable {host : HostKey} {key : UInt8}
  (lies : ∀ other : HostKey,
    HostKey.keypadLayout.lookup other = some key ↔ other = host)
include lies

theorem filter_sets_setting (other : HostKey) (down : Bool) :
    (((HostKey.keypadLayout.lookup other).toList.map fun key =>
        [Machine.Operation.setKey key down]).flatten.filter
      (Machine.Operation.sets key)) =
      if other = host then [.setKey key down] else [] := by
  have same := lies other
  cases found : HostKey.keypadLayout.lookup other with
  | none =>
      rw [found] at same
      have apart : other ≠ host := fun equal => by cases same.mpr equal
      simp [apart]
  | some above =>
      rw [found] at same
      by_cases equal : other = host
      · have named := Option.some.inj (same.mpr equal)
        simp [equal, named, Machine.Operation.sets]
      · have apart : above ≠ key := fun named => equal (same.mp (by rw [named]))
        simp [equal, apart, Machine.Operation.sets]

/-- Of what an event brings to the machine, only what a press or a release of
the key underneath brings sets a key of the keypad. -/
theorem filter_sets_input (program : List UInt8) (event : Event) :
    ((event.input program).flatten.filter (Machine.Operation.sets key)) =
      if event.concerns host then [.setKey key event.isPress] else [] := by
  cases event.form with
  | press other =>
      rw [input]
      split
      case isTrue restarts =>
        have apart : other ≠ host := by
          rintro rfl
          have found := (lies other).mpr rfl
          rw [HostKey.lookup_of_command (.inl restarts)] at found
          cases found
        simp [concerns, apart, Machine.Operation.sets]
      case isFalse =>
        rw [filter_sets_setting lies]
        simp [concerns, isPress]
  | lift other =>
      rw [input, filter_sets_setting lies]
      simp [concerns, isPress]
  | closed => rfl
  | idle _ _ unheard unconcerned => simp [unheard, unconcerned]

omit lies in
theorem eq_press_of_concerns {event : Event} (concerned : event.concerns host)
    (press : event.isPress) : event = keyDown (some host) false := by
  simp only [concerns, Bool.or_eq_true, decide_eq_true_eq] at concerned
  cases concerned with
  | inl pressed => exact pressed
  | inr lifted =>
      rw [lifted] at press
      cases press

theorem filter_sets_inputs (program : List UInt8) (events : List Event) :
    ((events.flatMap (Event.input program)).flatten.filter
        (Machine.Operation.sets key)) =
      (events.filter (Event.concerns host)).map fun event =>
        .setKey key event.isPress := by
  induction events with
  | nil => rfl
  | cons event rest ih =>
      rw [List.flatMap_cons, List.flatten_append, List.filter_append, ih,
        filter_sets_input lies, List.filter_cons]
      split <;> simp

/-- What events bring to the machine sets a key of the keypad last by pressing
it if the last event of the key underneath is a press. -/
theorem getLast?_sets_inputs_iff (program : List UInt8) (events : List Event) :
    ((events.flatMap (Event.input program)).flatten.filter
        (Machine.Operation.sets key)).getLast? = some (.setKey key true) ↔
      (events.filter (Event.concerns host)).getLast? =
        some (keyDown (some host) false) := by
  rw [filter_sets_inputs lies, List.getLast?_map, Option.map_eq_some_iff]
  constructor
  case mp =>
    rintro ⟨event, last, press⟩
    have concerned := List.of_mem_filter (List.mem_of_getLast? last)
    rw [last, eq_press_of_concerns concerned (by simpa using press)]
  case mpr =>
    intro last
    exact ⟨_, last, rfl⟩

end OneKey

theorem restarts_of_reset_mem {program : List UInt8} {event : Event}
    (reset : Machine.Operation.reset ∈ (event.input program).flatten) :
    event = keyDown (some ⟨"Backspace"⟩) false := by
  cases event.form with
  | press host =>
      obtain ⟨name⟩ := host
      by_cases restarts : name = "Backspace"
      · rw [restarts]
      · simp [input, restarts] at reset
  | lift host => simp [input] at reset
  | closed => simp [input] at reset
  | idle _ _ unheard => simp [unheard] at reset

end Event

end ChipEight
