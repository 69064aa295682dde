import ChipEight.Machine.Record

/-!
# Notices

What a session tells whoever watches it: what its machine reports, and what it
has to say itself.
-/

namespace ChipEight

inductive Notice
  /-- The machine reports something. -/
  | machine (record : Machine.Record)
  /-- The session begins with a program of some bytes from a file. -/
  | opened (name : String) (size : Nat)
  | restarted
  | beep
  /-- The program has begun to wait for a key. -/
  | waitingForKey
  deriving DecidableEq

namespace Notice

def severity : Notice → Severity
  | machine record => record.severity
  | opened _ _ => .info
  | restarted => .info
  | beep => .info
  | waitingForKey => .info

def text : Notice → String
  | machine record => record.text
  | opened name size =>
    "loaded " ++ name ++ " (" ++ String.ofList (Numeral.decimal size) ++
      " bytes)"
  | restarted => "restarted"
  | beep => "beep"
  | waitingForKey => "waiting for a key"

/-- The notices that a listener hears who chose a threshold. -/
def heard (threshold : Severity) (notices : List Notice) : List Notice :=
  notices.filter fun notice => notice.severity.heardAt threshold

end Notice

end ChipEight
