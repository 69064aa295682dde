import ChipEight.Proofs.Machine.Reachability
import ChipEight.Proofs.Machine.Redraw
import ChipEight.Proofs.Machine.Since
import ChipEight.Proofs.Machine.Transcript

/-!
# Frames are handed over

The redraw flag is up if something has been drawn since a reset or since the
frame was last taken or acknowledged.  So a frame is offered exactly then, and
whoever shows the frames that were taken, and nothing else, is never behind a
lowered flag.
-/

namespace ChipEight

namespace Machine

namespace Operation

def lowersRedraw : Operation → Bool
  | reset | takeFrame | clearRedraw => true
  | _ => false

end Operation

/-- Whether an operation is a step that draws on the frame or clears it. -/
def Draws (machine : Machine) (operation : Operation) : Prop :=
  operation = .step ∧ machine.step.answer.draws = true

/-- The frame that an answer tells of. -/
def Answer.shown? : Answer → Option Frame
  | frame shown => shown
  | _ => none

/-- The frames that were taken in a run, in order. -/
def framesTaken (machine : Machine) (operations : List Operation) :
    List Frame :=
  (machine.answersTo (fun operation => operation = .takeFrame)
    operations).filterMap Answer.shown?

variable {machine : Machine} {operation : Operation}

/-- An operation leaves the flag up if it draws, or if the flag was up and the
operation is none of those that lower it. -/
theorem redraw_perform_iff (machine : Machine) (operation : Operation) :
    (machine.perform operation).machine.state.redraw = true ↔
      machine.Draws operation ∨
        (operation.lowersRedraw = false ∧ machine.state.redraw = true) := by
  cases operation with
  | step =>
      have stepped := machine.redraw_step
      simp only [perform, Response.map, Draws, Operation.lowersRedraw, stepped,
        Bool.or_eq_true, true_and]
  | load program =>
      obtain ⟨memory, same⟩ := machine.exists_load_eq program
      simp [perform, Response.map, Draws, Operation.lowersRedraw, same]
  | loadFrom reader =>
      obtain ⟨memory, same⟩ := machine.exists_loadFrom_eq reader
      simp [perform, Response.map, Draws, Operation.lowersRedraw, same]
  | setKey key down =>
      have set := machine.redraw_setKey key down
      simp [perform, Response.map, Draws, Operation.lowersRedraw, set]
  | tick => simp [perform, Response.map, tick, Draws, Operation.lowersRedraw]
  | frame => simp [perform, Draws, Operation.lowersRedraw]
  | reset =>
      simp [perform, Response.map, reset, State.initial, Draws,
        Operation.lowersRedraw]
  | takeFrame =>
      simp [perform, Response.map, takeFrame, clearRedraw, Draws,
        Operation.lowersRedraw]
  | clearRedraw =>
      simp [perform, clearRedraw, Draws, Operation.lowersRedraw]

theorem frame_perform (idle : ¬ machine.Draws operation)
    (unreset : operation ≠ .reset) :
    (machine.perform operation).machine.state.frame = machine.state.frame := by
  by_cases stepped : operation = .step
  · subst stepped
    have quiet : machine.step.answer.draws = false := by
      simpa [Draws] using idle
    exact frame_step_of_not_draws quiet
  · obtain ⟨memory, timers, redraw, keypad, same⟩ :=
      machine.exists_perform_eq stepped unreset
    rw [same]

theorem frame?_eq_some_iff (frame : Frame) :
    machine.frame? = some frame ↔
      frame = machine.state.frame ∧ machine.state.redraw = true := by
  rw [frame?]
  split
  case isTrue raised => simp [raised, eq_comm]
  case isFalse lowered => simp [lowered]

theorem framesTaken_append_singleton (operations : List Operation) :
    machine.framesTaken (operations ++ [operation]) =
      machine.framesTaken operations ++
        if operation = .takeFrame then (machine.run operations).frame?.toList
        else [] := by
  rw [framesTaken, answersTo_append, answersTo_cons, List.filterMap_append]
  by_cases taking : operation = .takeFrame
  · subst taking
    cases shown : (machine.run operations).frame? <;>
      simp [framesTaken, answersTo, responses, perform, Response.map,
        takeFrame, Answer.shown?, shown]
  · simp [framesTaken, answersTo, responses, taking]

/-- Behind a lowered flag stands the frame that was taken last, since nothing
but taking it can have lowered the flag. -/
theorem frame_run_of_taken {operations : List Operation} {frame : Frame}
    (unreset : Operation.reset ∉ operations)
    (unacknowledged : Operation.clearRedraw ∉ operations)
    (taken : (machine.framesTaken operations).getLast? = some frame)
    (lowered : (machine.run operations).state.redraw = false) :
    (machine.run operations).state.frame = frame := by
  induction operations using List.reverseRecOn with
  | nil => cases taken
  | append_singleton operations last ih =>
      rw [List.mem_append, List.mem_singleton, not_or] at unreset unacknowledged
      rw [framesTaken_append_singleton] at taken
      rw [run_append, run_cons, run_nil] at lowered ⊢
      have before := ih unreset.1 unacknowledged.1
      by_cases taking : last = .takeFrame
      · subst taking
        cases raised : (machine.run operations).state.redraw with
        | true =>
            have offered : (machine.run operations).frame? =
                some (machine.run operations).state.frame :=
              (frame?_eq_some_iff _).mpr ⟨rfl, raised⟩
            simp only [offered, if_true, Option.toList_some,
              List.getLast?_concat, Option.some.injEq] at taken
            exact taken
        | false =>
            have withheld : (machine.run operations).frame? = none := by
              simp [frame?, raised]
            simp only [withheld, if_true, Option.toList_none, List.append_nil]
              at taken
            exact before taken raised
      · simp only [taking, if_false, List.append_nil] at taken
        have keeps : last.lowersRedraw = false := by
          cases last with
          | reset => exact absurd rfl unreset.2
          | takeFrame => exact absurd rfl taking
          | clearRedraw => exact absurd rfl unacknowledged.2
          | _ => rfl
        have down := (redraw_perform_iff (machine.run operations) last).not.mp
          (by rw [lowered]; exact Bool.false_ne_true)
        rw [not_or] at down
        have was : (machine.run operations).state.redraw = false := by
          simpa [keeps] using down.2
        rw [frame_perform down.1 (Ne.symm unreset.2)]
        exact before taken was

/-- A frame is offered exactly if a draw or a clear has been executed since the
machine was new or last reset and since the frame was last taken or
acknowledged; it is the present frame, and taking it lowers the flag and does
nothing else.  So between resets, and unless frames are acknowledged unseen,
the frame behind a lowered flag is the one that was taken last, once one has
been taken. -/
theorem frames_handed_over (random : RandomSource) :
    (∀ operations,
      let machine := (new random).run operations
      (∀ frame, machine.frame? = some frame ↔
        frame = machine.state.frame ∧
          (new random).Since (fun _ later => later.lowersRedraw = false)
            Draws operations) ∧
      (machine.perform .frame).answer = .frame machine.frame? ∧
      (machine.perform .takeFrame).answer = .frame machine.frame? ∧
      (machine.perform .takeFrame).machine =
        { machine with state := { machine.state with redraw := false } }) ∧
    ∀ (machine : Machine) (operations : List Operation) (frame : Frame),
      Operation.reset ∉ operations → Operation.clearRedraw ∉ operations →
      (machine.framesTaken operations).getLast? = some frame →
      (machine.run operations).state.redraw = false →
        (machine.run operations).state.frame = frame := by
  refine ⟨?offered, ?caughtUp⟩
  case offered =>
    intro operations machine
    refine ⟨?_, rfl, rfl, rfl⟩
    intro frame
    have raised : machine.state.redraw = true ↔
        (new random).Since (fun _ later => later.lowersRedraw = false)
          Draws operations :=
      iff_since (fun machine => machine.state.redraw = true)
        redraw_perform_iff (by simp [new, State.initial]) operations
    rw [frame?_eq_some_iff, raised]
  case caughtUp =>
    intro machine operations frame unreset unacknowledged taken lowered
    exact frame_run_of_taken unreset unacknowledged taken lowered

/-- A sprite without a lit pixel counts as drawn, and is offered once. -/
example :
    let machine := (new (RandomSource.ofSeed 0)).run [.load [0xD0, 0x01], .step]
    machine.frame?.isSome = true ∧
      (machine.run [.takeFrame]).frame?.isSome = false := by
  decide +kernel

end Machine

end ChipEight
