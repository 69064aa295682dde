import ChipEight.Machine

/-!
# Loading programs

A program is copied into memory where programs start, and is refused if it does
not fit.  It may come from a reader, which hands out bytes in as many pieces as
it likes and may fail; it is read to its end before anything is loaded.
-/

namespace ChipEight

/-- What one attempt to read gives. -/
inductive ReadOutcome
  /-- Some bytes; no bytes mean that the end has been reached. -/
  | bytes (chunk : List UInt8)
  /-- The attempt was disturbed and is to be repeated. -/
  | interrupted
  /-- The attempt failed for good. -/
  | failed (reason : String)
  deriving DecidableEq

namespace ReadOutcome

/-- Reads to the end and joins the bytes, or stops at the first failure. -/
def readToEnd : List ReadOutcome → Except String (List UInt8)
  | [] => .ok []
  | bytes [] :: _ => .ok []
  | bytes (first :: more) :: rest =>
    match readToEnd rest with
    | .ok following => .ok ((first :: more) ++ following)
    | .error reason => .error reason
  | interrupted :: rest => readToEnd rest
  | failed reason :: _ => .error reason

end ReadOutcome

/-- Why a program could not be placed in memory. -/
inductive LoadError
  /-- The program is longer than the memory for programs. -/
  | programTooLarge (size capacity : Nat)
  /-- The program could not be read. -/
  | unreadable (reason : String)
  deriving DecidableEq

namespace LoadError

def message : LoadError → String
  | programTooLarge size capacity =>
    "program is " ++ String.ofList (Numeral.decimal size) ++
      " bytes but at most " ++ String.ofList (Numeral.decimal capacity) ++
      " bytes fit in memory"
  | unreadable reason => "unable to read program: " ++ reason

end LoadError

namespace Machine

/-- Places a program in memory, unless it is too large. -/
def load (machine : Machine) (program : List UInt8) :
    Response (Except LoadError Unit) :=
  if programCapacity < program.length then
    { machine := machine,
      answer := .error (.programTooLarge program.length programCapacity),
      records := [] }
  else
    { machine :=
        { machine with
          state :=
            { machine.state with
              memory :=
                machine.state.memory.store programStart.toNat program } },
      answer := .ok (),
      records := [.loaded program.length] }

/-- Places what a reader gives in memory. -/
def loadFrom (machine : Machine) (reader : List ReadOutcome) :
    Response (Except LoadError Unit) :=
  match ReadOutcome.readToEnd reader with
  | .ok program => machine.load program
  | .error reason =>
    { machine := machine,
      answer := .error (.unreadable reason),
      records := [] }

theorem answer_load (machine : Machine) (program : List UInt8) :
    (machine.load program).answer =
      if programCapacity < program.length then
        .error (.programTooLarge program.length programCapacity)
      else
        .ok () := by
  rw [load]
  split <;> rfl

theorem answer_load_of_le {program : List UInt8}
    (fits : program.length ≤ programCapacity) (machine : Machine) :
    (machine.load program).answer = .ok () := by
  rw [answer_load, if_neg (Nat.not_lt.mpr fits)]

/-- Loading reaches nothing but memory. -/
theorem exists_load_eq (machine : Machine) (program : List UInt8) :
    ∃ memory, (machine.load program).machine =
      { machine with state := { machine.state with memory := memory } } := by
  rw [load]
  split
  · exact ⟨machine.state.memory, rfl⟩
  · exact ⟨_, rfl⟩

theorem exists_loadFrom_eq (machine : Machine) (reader : List ReadOutcome) :
    ∃ memory, (machine.loadFrom reader).machine =
      { machine with state := { machine.state with memory := memory } } := by
  rw [loadFrom]
  split
  · exact machine.exists_load_eq _
  · exact ⟨machine.state.memory, rfl⟩

end Machine

end ChipEight
