import ChipEight.Instruction.Encoding
import ChipEight.Machine

/-!
# Steps

One step fetches the word at the counter, decodes it and executes the
instruction.  The machine recovers from every fault: it passes over a word that
is no instruction and over an instruction that is refused, and it stays at a
counter that it cannot fetch from.  A crash has no recovery; the step then
leaves the state as it was.
-/

namespace ChipEight

namespace Machine

inductive Outcome
  | executed (instruction : Instruction)
  /-- The instruction waits for a key and will run again. -/
  | awaiting
  /-- The machine recovered from a fault. -/
  | faulted (fault : Fault)
  /-- The step has no result. -/
  | crashed (crash : Crash)
  deriving DecidableEq

/-- The end of a step without a fault, which forgets the fault before it. -/
def succeed (machine : Machine) (state : State) (random : RandomSource)
    (outcome : Outcome) (records : List Record) : Response Outcome :=
  { machine :=
      { machine with state := state, random := random, lastFault := none },
    answer := outcome,
    records := records }

/-- The end of a step with a fault: the counter is where the recovery puts it,
and the fault is reported and remembered. -/
def recover (machine : Machine) (counter : Word) (fault : Fault)
    (records : List Record) : Response Outcome :=
  let state := { machine.state with counter := counter }
  { machine := { machine with state := state, lastFault := some fault },
    answer := .faulted fault,
    records :=
      records ++
        [.recovered fault (machine.lastFault == some fault) state.dump] }

/-- The end of a step without a result. -/
def crash (machine : Machine) (cause : Crash) (records : List Record) :
    Response Outcome :=
  { machine := machine, answer := .crashed cause, records := records }

/-- The end of a step with a fault of the fetched word, which the machine
passes over. -/
def recoverPast (machine : Machine) (fault : Fault) (records : List Record) :
    Response Outcome :=
  match machine.state.counter.advance 2 with
  | .ok counter => machine.recover counter fault records
  | .error cause => machine.crash cause records

/-- The outcome of an instruction that ran: a wait that did not move the
counter goes on waiting. -/
def outcomeOf (instruction : Instruction) (before after : State) : Outcome :=
  if instruction.awaitsKey && after.counter == before.counter then
    .awaiting
  else
    .executed instruction

def stepDecoded (machine : Machine) (word : Word)
    (instruction : Instruction) : Response Outcome :=
  let records := [.decoded word instruction machine.state.dump]
  match instruction.executeDrawing machine.random machine.state with
  | (.ok state, random) =>
    machine.succeed state random
      (outcomeOf instruction machine.state state) records
  | (.error (.fault fault), random) =>
    { machine with random := random }.recoverPast fault records
  | (.error (.crash cause), random) =>
    { machine with random := random }.crash cause records

/-- Advances a machine by one instruction. -/
def step (machine : Machine) : Response Outcome :=
  match machine.state.fetch with
  | .error fault => machine.recover machine.state.counter fault []
  | .ok word =>
    match Instruction.decode word with
    | some instruction => machine.stepDecoded word instruction
    | none =>
      machine.recoverPast (.unknownOpcode word machine.state.counter) []

end Machine

end ChipEight
