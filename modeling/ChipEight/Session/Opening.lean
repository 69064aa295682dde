import ChipEight.Session

/-!
# Opening a session

A session begins with a program file.  The file has to exist, its contents have
to fit into memory, and the window has to be possible; these are checked in
this order.
-/

namespace ChipEight

/-- What is found under the name of a program. -/
inductive ProgramFile
  | content (bytes : List UInt8)
  | absent
  | unreadable (reason : String)
  deriving DecidableEq

namespace Session

/-- Why a session could not be opened. -/
inductive OpeningError
  /-- There is no file of that name. -/
  | fileAbsent
  /-- The file could not be read. -/
  | fileUnreadable (reason : String)
  /-- The program could not be placed in memory. -/
  | notLoaded (cause : LoadError)
  /-- No window of that scale can be opened. -/
  | noWindow (cause : WindowError)
  deriving DecidableEq

namespace OpeningError

def message : OpeningError → String
  | fileAbsent => "No such file or directory (os error 2)"
  | fileUnreadable reason => reason
  | notLoaded cause => cause.message
  | noWindow cause => cause.message

end OpeningError

/-- The session of a machine that holds its program and has not moved yet. -/
def ready (machine : Machine) (program : List UInt8) (window : Window)
    (threshold : Severity) : Session :=
  { machine := machine,
    program := program,
    window := window,
    threshold := threshold,
    phase := .polling,
    waiting := false,
    frameNotices := #[],
    processorNotices := #[],
    shown := #[] }

/-- Opens a session with the contents of a program file. -/
def openProgram (name : String) (program : List UInt8) (scale : Nat)
    (threshold : Severity) (random : RandomSource) :
    Except OpeningError Session :=
  let loaded := (Machine.new random).load program
  match loaded.answer with
  | .error cause => .error (.notLoaded cause)
  | .ok () =>
    match Window.create scale Palette.standard with
    | .error cause => .error (.noWindow cause)
    | .ok window =>
      .ok ((ready loaded.machine program window threshold).noteFrame
        (loaded.records.map .machine ++
          [Notice.opened name program.length]))

/-- A session opens if its program fits into memory and its window is possible,
with a new machine that holds the program. -/
theorem openProgram_eq_ok_iff {name : String} {program : List UInt8}
    {scale : Nat} {threshold : Severity} {random : RandomSource}
    {session : Session} :
    openProgram name program scale threshold random = .ok session ↔
      program.length ≤ programCapacity ∧
        ∃ window, Window.create scale Palette.standard = .ok window ∧
          (ready ((Machine.new random).load program).machine program window
            threshold).noteFrame
            (((Machine.new random).load program).records.map .machine ++
              [Notice.opened name program.length]) = session := by
  simp only [openProgram, Machine.answer_load]
  by_cases large : programCapacity < program.length
  · have excess : ¬ program.length ≤ programCapacity := Nat.not_le.mpr large
    simp [large, excess]
  · have fits : program.length ≤ programCapacity := Nat.not_lt.mp large
    rw [if_neg large]
    cases Window.create scale Palette.standard with
    | error cause => simp
    | ok window => simp [fits]

/-- Opens a session as the command line asks.  The random source is used when
no seed was chosen. -/
def start (options : CommandLine.Options) (file : ProgramFile)
    (threshold : Severity) (random : RandomSource) :
    Except OpeningError Session :=
  match file with
  | .absent => .error .fileAbsent
  | .unreadable reason => .error (.fileUnreadable reason)
  | .content program =>
    let source :=
      match options.seed with
      | some seed => RandomSource.ofSeed (UInt64.ofNat seed)
      | none => random
    openProgram (String.ofList options.program) program options.scale
      threshold source

end Session

end ChipEight
