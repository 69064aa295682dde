import ChipEight.Machine.Loading
import ChipEight.Machine.Step

/-!
# Histories

Operations of a machine as data, so that a life of a machine is a list of them.
`perform` does one operation and `run` a whole list; every operation answers
and may leave records, and these are all that an owner of the machine ever gets
to see besides its state.
-/

namespace ChipEight

namespace Machine

/-- What an owner can ask of a machine. -/
inductive Operation
  | load (program : List UInt8)
  | loadFrom (reader : List ReadOutcome)
  | step
  | tick
  | setKey (key : UInt8) (down : Bool)
  | reset
  | frame
  | takeFrame
  | clearRedraw
  deriving DecidableEq

/-- What an operation tells its owner. -/
inductive Answer
  | done
  | load (result : Except LoadError Unit)
  | step (outcome : Outcome)
  | tone (due : Bool)
  | frame (shown : Option Frame)

/-- A response with its answer restated. -/
def Response.map {First Second : Type} (restate : First → Second)
    (response : Response First) : Response Second :=
  { machine := response.machine,
    answer := restate response.answer,
    records := response.records }

def perform (machine : Machine) : Operation → Response Answer
  | .load program => (machine.load program).map .load
  | .loadFrom reader => (machine.loadFrom reader).map .load
  | .step => machine.step.map .step
  | .tick => machine.tick.map .tone
  | .setKey key down => (machine.setKey key down).map fun _ => .done
  | .reset => machine.reset.map fun _ => .done
  | .frame =>
    { machine := machine, answer := .frame machine.frame?, records := [] }
  | .takeFrame => machine.takeFrame.map .frame
  | .clearRedraw =>
    { machine := machine.clearRedraw, answer := .done, records := [] }

/-- Does operations in order and keeps the response to each. -/
def responses (machine : Machine) :
    List Operation → List (Response Answer)
  | [] => []
  | operation :: rest =>
    let response := machine.perform operation
    response :: response.machine.responses rest

/-- The machine after operations in order. -/
def run (machine : Machine) (operations : List Operation) : Machine :=
  operations.foldl (fun current operation =>
    (current.perform operation).machine) machine

@[simp]
theorem run_nil (machine : Machine) : machine.run [] = machine := rfl

@[simp]
theorem run_cons (machine : Machine) (operation : Operation)
    (rest : List Operation) :
    machine.run (operation :: rest) =
      (machine.perform operation).machine.run rest := rfl

theorem run_append (machine : Machine) (first second : List Operation) :
    machine.run (first ++ second) = (machine.run first).run second :=
  List.foldl_append

@[simp]
theorem length_responses (machine : Machine) (operations : List Operation) :
    (machine.responses operations).length = operations.length := by
  induction operations generalizing machine with
  | nil => rfl
  | cons operation rest ih =>
    simp only [responses, List.length_cons]
    rw [ih]

end Machine

end ChipEight
