import Mathlib.Data.List.Basic
import Mathlib.Data.List.Induction
import ChipEight.Machine.History

/-!
# What has held since

Much of what a machine holds is decided by the last operation of some kind: a
key is down since it was pressed, the flag is up since something was drawn.
`Since` says of a run that one of its operations began something and that all
operations after it kept it up.

What one operation does to a property decides the property after every run.
-/

namespace ChipEight

namespace Machine

/-- Some operation of a run begins something, and those after it keep it up.
Both are asked of an operation and of the machine it is done to. -/
def Since (machine : Machine) (keeps begins : Machine → Operation → Prop)
    (operations : List Operation) : Prop :=
  ∃ before operation after, operations = before ++ operation :: after ∧
    begins (machine.run before) operation ∧
    ∀ earlier next later, after = earlier ++ next :: later →
      keeps (machine.run (before ++ operation :: earlier)) next

variable {machine : Machine} {keeps begins : Machine → Operation → Prop}
variable {operations : List Operation} {last : Operation}

theorem not_since_nil : ¬ machine.Since keeps begins [] := by
  rintro ⟨before, operation, after, split, _⟩
  simp at split

theorem Since.of_begins (starts : begins (machine.run operations) last) :
    machine.Since keeps begins (operations ++ [last]) := by
  refine ⟨operations, last, [], rfl, starts, ?_⟩
  intro earlier next later split
  simp at split

theorem Since.append (since : machine.Since keeps begins operations)
    (kept : keeps (machine.run operations) last) :
    machine.Since keeps begins (operations ++ [last]) := by
  obtain ⟨before, operation, after, rfl, starts, ongoing⟩ := since
  refine ⟨before, operation, after ++ [last], by simp, starts, ?_⟩
  intro earlier next later split
  obtain rfl | ⟨rest, final, rfl⟩ := later.eq_nil_or_concat'
  · obtain ⟨rfl, rfl⟩ := List.append_singleton_inj.mp split
    exact kept
  · rw [← List.cons_append, ← List.append_assoc] at split
    obtain ⟨same, rfl⟩ := List.append_singleton_inj.mp split
    exact ongoing earlier next rest same

/-- After one more operation something has held since if this operation begins
it, or if it held before and the operation keeps it up. -/
theorem since_append_singleton :
    machine.Since keeps begins (operations ++ [last]) ↔
      begins (machine.run operations) last ∨
        (keeps (machine.run operations) last ∧
          machine.Since keeps begins operations) := by
  constructor
  case mp =>
    rintro ⟨before, operation, after, split, starts, ongoing⟩
    obtain rfl | ⟨rest, final, rfl⟩ := after.eq_nil_or_concat'
    · obtain ⟨rfl, rfl⟩ := List.append_singleton_inj.mp split
      exact .inl starts
    · rw [← List.cons_append, ← List.append_assoc] at split
      obtain ⟨rfl, rfl⟩ := List.append_singleton_inj.mp split
      refine .inr ⟨ongoing rest last [] rfl, before, operation, rest, rfl,
        starts, ?_⟩
      intro earlier next later same
      exact ongoing earlier next (later ++ [last]) (by simp [same])
  case mpr =>
    rintro (starts | ⟨kept, since⟩)
    · exact .of_begins starts
    · exact since.append kept

/-- A property that an operation leaves true exactly if the operation begins it
or finds it true and keeps it up holds after a run exactly if it has held
since.  What an operation does may depend on something that all operations
keep. -/
theorem iff_since_of_kept (Kept Holds : Machine → Prop)
    (kept : ∀ machine operation, Kept machine →
      Kept (machine.perform operation).machine)
    (perform : ∀ machine operation, Kept machine →
      (Holds (machine.perform operation).machine ↔
        begins machine operation ∨ (keeps machine operation ∧ Holds machine)))
    (start : Kept machine) (first : ¬ Holds machine)
    (operations : List Operation) :
    Holds (machine.run operations) ↔
      machine.Since keeps begins operations := by
  suffices Kept (machine.run operations) ∧
      (Holds (machine.run operations) ↔
        machine.Since keeps begins operations) from this.2
  induction operations using List.reverseRecOn with
  | nil => exact ⟨start, iff_of_false first not_since_nil⟩
  | append_singleton operations last ih =>
      obtain ⟨sound, holds⟩ := ih
      rw [run_append, run_cons, run_nil, perform _ _ sound,
        since_append_singleton, holds]
      exact ⟨kept _ last sound, Iff.rfl⟩

theorem iff_since (Holds : Machine → Prop)
    (perform : ∀ machine operation,
      Holds (machine.perform operation).machine ↔
        begins machine operation ∨ (keeps machine operation ∧ Holds machine))
    (first : ¬ Holds machine) (operations : List Operation) :
    Holds (machine.run operations) ↔
      machine.Since keeps begins operations :=
  iff_since_of_kept (fun _ => True) Holds (fun _ _ _ => trivial)
    (fun machine operation _ => perform machine operation) trivial first
    operations

end Machine

end ChipEight
