/-!
# Bounded sinks

An output that takes a limited number of characters and then fails.  A piece
that does not fit is taken as far as there is room, so that a sink always holds
the beginning of what was offered to it.
-/

namespace ChipEight

/-- An output with the characters it has taken and the room it has left. -/
structure Sink where
  held : List Char
  room : Nat
  deriving DecidableEq

namespace Sink

def empty (room : Nat) : Sink :=
  { held := [], room := room }

/-- Offers one piece of text.  The answer tells whether all of it was taken. -/
def write (sink : Sink) (piece : List Char) : Sink × Bool :=
  ({ held := sink.held ++ piece.take sink.room,
     room := sink.room - piece.length },
    decide (piece.length ≤ sink.room))

/-- Offers pieces in order and stops at the first one that is not taken
whole. -/
def writeAll (sink : Sink) : List (List Char) → Sink × Bool
  | [] => (sink, true)
  | piece :: rest =>
    match sink.write piece with
    | (next, true) => next.writeAll rest
    | (next, false) => (next, false)

/-- A sink ends up with the beginning of all pieces together, as far as it had
room, and takes all of them exactly if they fit together. -/
theorem writeAll_eq (pieces : List (List Char)) :
    ∀ sink : Sink,
      (sink.writeAll pieces).1.held =
          sink.held ++ pieces.flatten.take sink.room ∧
        (sink.writeAll pieces).2 =
          decide (pieces.flatten.length ≤ sink.room) := by
  induction pieces with
  | nil =>
    intro sink
    simp [writeAll]
  | cons piece rest ih =>
    intro sink
    simp only [writeAll, write]
    by_cases fits : piece.length ≤ sink.room
    · obtain ⟨held, complete⟩ :=
        ih ⟨sink.held ++ piece.take sink.room, sink.room - piece.length⟩
      simp only [fits, decide_true, held, complete, List.flatten_cons,
        List.length_append, List.append_assoc, List.take_append]
      refine ⟨trivial, ?_⟩
      simp only [decide_eq_decide]
      omega
    · have short : sink.room ≤ piece.length := by omega
      simp only [fits, decide_false, List.flatten_cons, List.length_append,
        List.take_append_of_le_length short, true_and]
      symm
      simp only [decide_eq_false_iff_not]
      omega

end Sink

end ChipEight
