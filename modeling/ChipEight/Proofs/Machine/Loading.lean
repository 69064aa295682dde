import ChipEight.Machine.Loading
import ChipEight.Proofs.Memory.Contents

/-!
# Loading is all or nothing

A reader hands out a program in pieces of any size and may be disturbed on the
way.  What counts is what comes before its end: the first failure, or else the
bytes of all pieces in a row.  Only if the end was reached and the bytes fit is
anything placed in memory; then memory holds them where programs start, and
nothing else has changed.
-/

namespace ChipEight

namespace ReadOutcome

/-- The bytes that an attempt gives. -/
def content : ReadOutcome → List UInt8
  | bytes chunk => chunk
  | interrupted => []
  | failed _ => []

/-- Why an attempt failed for good. -/
def failure? : ReadOutcome → Option String
  | failed reason => some reason
  | _ => none

/-- The outcomes before the one that tells of the end, if there is one. -/
def beforeEnd (reader : List ReadOutcome) : List ReadOutcome :=
  reader.takeWhile fun outcome => outcome ≠ bytes []

/-- Reading stops at the first failure before the end and otherwise gives the
bytes of all attempts before it, however they were split up. -/
theorem readToEnd_eq (reader : List ReadOutcome) :
    readToEnd reader =
      match (beforeEnd reader).findSome? failure? with
      | some reason => .error reason
      | none => .ok ((beforeEnd reader).flatMap content) := by
  induction reader with
  | nil => rfl
  | cons outcome rest ih =>
      cases outcome with
      | bytes chunk =>
          cases chunk with
          | nil => rfl
          | cons first more =>
              have goesOn : beforeEnd (bytes (first :: more) :: rest) =
                  bytes (first :: more) :: beforeEnd rest := rfl
              have passed : failure? (bytes (first :: more)) = none := rfl
              rw [readToEnd, ih, goesOn, List.findSome?_cons, passed]
              cases (beforeEnd rest).findSome? failure? with
              | some reason => rfl
              | none => rfl
      | interrupted => exact ih
      | failed reason => rfl

end ReadOutcome

namespace Machine

variable {machine : Machine} {program : List UInt8}

theorem load_of_too_large (large : programCapacity < program.length) :
    machine.load program =
      { machine := machine
        answer := .error (.programTooLarge program.length programCapacity)
        records := [] } := by
  rw [load, if_pos large]

/-- A program that fits stands in memory byte by byte. -/
theorem byte_load_of_getElem? (fits : program.length ≤ programCapacity)
    {offset : Nat} {byte : UInt8} (found : program[offset]? = some byte) :
    (machine.load program).machine.state.memory.byte
      (programStart.toNat + offset) = byte := by
  rw [load, if_neg (Nat.not_lt.mpr fits)]
  apply Memory.byte_store_of_getElem? _ _ found
  simp only [programCapacity] at fits
  simp only [programStart, memorySize, UInt16.reduceToNat]
  omega

theorem byte_load_of_outside {address : Nat}
    (outside : address < programStart.toNat ∨
      programStart.toNat + program.length ≤ address) :
    (machine.load program).machine.state.memory.byte address =
      machine.state.memory.byte address := by
  rw [load]
  split
  · rfl
  · exact Memory.byte_store_of_outside _ _ outside

/-- A failure before the end of a reader is reported and leaves the machine as
it was, however much had been read; without one, a reader does what loading all
of its bytes before the end at once does, however they were split up and
whatever disturbed it.  A program is refused exactly if it is longer than the
memory for programs, and then nothing changes; any other program stands in
memory afterwards, and no other byte and no other part of the machine has
changed. -/
theorem loading_is_all_or_nothing (machine : Machine) :
    (∀ reader,
      match (ReadOutcome.beforeEnd reader).findSome? ReadOutcome.failure? with
      | some reason =>
        machine.loadFrom reader =
          { machine := machine
            answer := .error (.unreadable reason)
            records := [] }
      | none =>
        machine.loadFrom reader =
          machine.load
            ((ReadOutcome.beforeEnd reader).flatMap ReadOutcome.content)) ∧
      ∀ program,
        let response := machine.load program
        (response.answer =
            .error (.programTooLarge program.length programCapacity) ↔
          programCapacity < program.length) ∧
        (programCapacity < program.length → response.machine = machine) ∧
        (program.length ≤ programCapacity →
          response.answer = .ok () ∧
            ∀ offset byte, program[offset]? = some byte →
              response.machine.state.memory.byte
                (programStart.toNat + offset) = byte) ∧
        (∀ address, address < programStart.toNat ∨
            programStart.toNat + program.length ≤ address →
          response.machine.state.memory.byte address =
            machine.state.memory.byte address) ∧
        response.machine =
          { machine with
            state :=
              { machine.state with
                memory := response.machine.state.memory } } := by
  refine ⟨?reader, ?program⟩
  case reader =>
    intro reader
    split
    case h_1 reason fails =>
      rw [loadFrom, ReadOutcome.readToEnd_eq, fails]
    case h_2 succeeds =>
      rw [loadFrom, ReadOutcome.readToEnd_eq, succeeds]
  case program =>
    intro program response
    have answer : response.answer = _ := machine.answer_load program
    refine ⟨?refused, ?kept, ?stored, ?spared, ?frame⟩
    case refused =>
      rw [answer]
      by_cases large : programCapacity < program.length
      · simp [large]
      · simp [large]
    case kept =>
      intro large
      exact congrArg Response.machine (load_of_too_large large)
    case stored =>
      intro fits
      exact ⟨machine.answer_load_of_le fits,
        fun _ _ found => byte_load_of_getElem? fits found⟩
    case spared =>
      intro address outside
      exact byte_load_of_outside outside
    case frame =>
      obtain ⟨memory, same⟩ := machine.exists_load_eq program
      simp only [response, same]

/-- A failure is reported even after more bytes than would fit. -/
example (machine : Machine) :
    (machine.loadFrom
        [.bytes (List.replicate 3600 0), .interrupted,
          .failed "connection lost"]).answer =
      .error (.unreadable "connection lost") := rfl

end Machine

end ChipEight
