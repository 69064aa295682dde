import ChipEight.Pacing
import ChipEight.Session.Opening
import ChipEight.Session.Script
import ChipEight.Terminal

/-!
# The command

Runs a program on the terminal: frames are printed, notices go to the error
stream, and events are read from the input line by line.
-/

namespace ChipEight

namespace Terminal

/-- Reads events for as long as there is input. -/
partial def readEvents (input : IO.FS.Stream) (queue : IO.Ref (List Event)) :
    IO Unit := do
  let line ← input.getLine
  if line.isEmpty then
    return
  let characters := line.toList.filter fun character =>
    character != '\n' && character != '\r'
  queue.modify fun events => events ++ [eventOfLine characters]
  readEvents input queue

/-- Prints what has come up since the given session. -/
def report (before after : Session) : IO Unit := do
  let errors ← IO.getStderr
  for notice in after.frameNotices.toList.drop before.frameNotices.size do
    errors.putStrLn (noticeLine notice)
  for notice in
      after.processorNotices.toList.drop before.processorNotices.size do
    errors.putStrLn (noticeLine notice)
  for frame in after.shown.toList.drop before.shown.size do
    for line in frameLines frame do
      IO.println line

/-- Runs one turn after another until the session ends. -/
partial def runTurns (stepsPerTurn : Nat) (queue : IO.Ref (List Event))
    (pacer : Pacer) (session : Session) : IO Session := do
  let events ← queue.modifyGet fun events => (events, [])
  let stepped := session.runProcessor stepsPerTurn
  let handled := stepped.moveAll (events.map .event)
  if handled.hasEnded then
    report session handled
    return handled
  let shown := (handled.move .refresh).move .present
  report session shown
  let now ← IO.monoNanosNow
  IO.sleep (UInt32.ofNat (pacer.pause now / 1000000))
  runTurns stepsPerTurn queue (pacer.wait now) shown

/-- The contents of a program file. -/
def readProgram (name : String) : IO ProgramFile := do
  try
    let bytes ← IO.FS.readBinFile name
    return .content bytes.toList
  catch
    | .noFileOrDirectory _ _ _ => return .absent
    | other => return .unreadable (toString other)

/-- A seed that differs from run to run. -/
def freshSeed : IO UInt64 := do
  let seed ← IO.rand 0 0xFFFFFFFFFFFFFFFF
  return UInt64.ofNat seed

/-- Runs a program with the options of the command line. -/
def runProgram (options : CommandLine.Options) : IO UInt32 := do
  let file ← readProgram (String.ofList options.program)
  let random := RandomSource.ofSeed (← freshSeed)
  match Session.start options file options.threshold random with
  | .error cause =>
    (← IO.getStderr).putStrLn ("error: " ++ cause.message)
    return 1
  | .ok session =>
    for notice in session.frameNotices.toList do
      (← IO.getStderr).putStrLn (noticeLine notice)
    let queue ← IO.mkRef ([] : List Event)
    let input ← IO.getStdin
    let _ ← IO.asTask (readEvents input queue) .dedicated
    let pacer := Pacer.start options.timerRate (← IO.monoNanosNow)
    let stepsPerTurn := max 1 (options.clockRate / options.timerRate)
    let last ← runTurns stepsPerTurn queue pacer session
    match last.phase with
    | .ended (some failure) =>
      (← IO.getStderr).putStrLn ("error: " ++ failure.message)
      return 1
    | _ => return 0

end Terminal

end ChipEight

/-- Runs the command and answers with its exit status. -/
def main (arguments : List String) : IO UInt32 := do
  match ChipEight.CommandLine.parse arguments with
  | .ok options => ChipEight.Terminal.runProgram options
  | .error refusal =>
    if ChipEight.Terminal.isAnswered refusal then
      IO.println (ChipEight.Terminal.refusalText refusal)
      return 0
    else
      (← IO.getStderr).putStrLn (ChipEight.Terminal.refusalText refusal)
      return 2
