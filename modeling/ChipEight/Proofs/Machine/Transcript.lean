import ChipEight.Machine.History

/-!
# What a run tells

The owner of a machine learns of a run through the answers to the operations
and through the records they leave.  From the answers follow the instructions
that were executed and, for operations of one kind, what each of them was told;
of the records a listener hears what is severe enough.
-/

namespace ChipEight

namespace Machine

/-- The instruction that was executed, if the answer tells of one. -/
def Answer.executed? : Answer → Option Instruction
  | step (.executed instruction) => some instruction
  | _ => none

/-- The instructions that operations execute, in order. -/
def executions (machine : Machine) (operations : List Operation) :
    List Instruction :=
  (machine.responses operations).filterMap fun response =>
    response.answer.executed?

/-- The answers to the chosen ones among operations, in order. -/
def answersTo (machine : Machine) (chosen : Operation → Bool)
    (operations : List Operation) : List Answer :=
  ((operations.zip (machine.responses operations)).filter fun entry =>
    chosen entry.1).map fun entry => entry.2.answer

/-- The operations of a run, each with the machine it is done to. -/
def stages (machine : Machine) : List Operation → List (Machine × Operation)
  | [] => []
  | operation :: rest =>
    (machine, operation) :: (machine.perform operation).machine.stages rest

/-- The records of a run, in order. -/
def records (machine : Machine) (operations : List Operation) : List Record :=
  (machine.responses operations).flatMap Response.records

/-- What a listener hears of a response who chose a threshold: how severe each
record is, and its text. -/
def Response.reports {Answer : Type} (response : Response Answer)
    (threshold : Severity) : List (Severity × List Char) :=
  (response.records.filter fun record => record.severity.heardAt threshold).map
    fun record => (record.severity, record.characters)

/-- Who chose the least severe grade hears every record. -/
theorem reports_trace {Answer : Type} (response : Response Answer) :
    response.reports .trace =
      response.records.map fun record =>
        (record.severity, record.characters) := by
  rw [Response.reports, List.filter_eq_self.mpr]
  intro record _
  cases record.severity <;> rfl

section Laws

variable (machine : Machine)

theorem responses_append (first second : List Operation) :
    machine.responses (first ++ second) =
      machine.responses first ++ (machine.run first).responses second := by
  induction first generalizing machine with
  | nil => rfl
  | cons operation rest ih =>
      simp only [List.cons_append, responses, run_cons]
      rw [ih]

theorem executions_cons (operation : Operation) (rest : List Operation) :
    machine.executions (operation :: rest) =
      (machine.perform operation).answer.executed?.toList ++
        (machine.perform operation).machine.executions rest := by
  simp only [executions, responses, List.filterMap_cons]
  cases (machine.perform operation).answer.executed? <;> rfl

theorem executions_append (first second : List Operation) :
    machine.executions (first ++ second) =
      machine.executions first ++ (machine.run first).executions second := by
  rw [executions, responses_append, List.filterMap_append]
  rfl

theorem records_cons (operation : Operation) (rest : List Operation) :
    machine.records (operation :: rest) =
      (machine.perform operation).records ++
        (machine.perform operation).machine.records rest := by
  simp only [records, responses, List.flatMap_cons]

theorem executed?_perform {operation : Operation}
    (unstepped : operation ≠ .step) :
    (machine.perform operation).answer.executed? = none := by
  cases operation with
  | step => exact absurd rfl unstepped
  | _ => rfl

theorem executed?_perform_step :
    (machine.perform .step).answer.executed? =
      match machine.step.answer with
      | .executed instruction => some instruction
      | _ => none := by
  rw [perform, Response.map]
  cases machine.step.answer <;> rfl

variable (chosen : Operation → Bool)

theorem answersTo_cons (operation : Operation) (rest : List Operation) :
    machine.answersTo chosen (operation :: rest) =
      (if chosen operation then [(machine.perform operation).answer]
        else []) ++
        (machine.perform operation).machine.answersTo chosen rest := by
  simp only [answersTo, responses, List.zip_cons_cons, List.filter_cons]
  split <;> rfl

theorem answersTo_append (first second : List Operation) :
    machine.answersTo chosen (first ++ second) =
      machine.answersTo chosen first ++
        (machine.run first).answersTo chosen second := by
  have sizes : first.length = (machine.responses first).length :=
    (machine.length_responses first).symm
  simp only [answersTo, responses_append, List.zip_append sizes,
    List.filter_append, List.map_append]

end Laws

end Machine

end ChipEight
