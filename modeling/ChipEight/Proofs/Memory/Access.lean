import ChipEight.State

/-!
# When memory may be accessed

A span is readable if it ends inside memory, and writable if moreover it keeps
clear of the font.  Both checks are restated here as conditions on addresses,
and so is the check that comes with every fetch.
-/

namespace ChipEight

namespace Span

theorem readFault?_eq_none_iff (span : Span) :
    span.readFault? = none ↔ span.stop ≤ memorySize := by
  simp [readFault?]

theorem readFault?_eq_some_iff (span : Span) (fault : Fault) :
    span.readFault? = some fault ↔
      memorySize < span.stop ∧ fault = .outOfRange (max span.start 0x1000) := by
  by_cases past : memorySize < span.stop
  · simp [readFault?, past, eq_comm]
  · simp [readFault?, past]

/-- A span can be written exactly if it ends inside memory and either ends
before the font begins or begins after it. -/
theorem writeFault?_eq_none_iff (span : Span) :
    span.writeFault? = none ↔
      span.stop ≤ memorySize ∧
        (fontEnd.toNat ≤ span.start.toNat ∨ span.stop ≤ fontStart.toNat) := by
  rw [← readFault?_eq_none_iff, writeFault?]
  cases span.readFault? with
  | some fault => simp
  | none =>
      simp only [ite_eq_right_iff, reduceCtorEq, imp_false, true_and]
      omega

end Span

namespace State

theorem fetch_eq_error_iff (state : State) (fault : Fault) :
    state.fetch = .error fault ↔
      0xFFE < state.counter.toNat ∧
        fault = .outOfRange (max state.counter 0x1000) := by
  rw [fetch]
  cases refusal :
      ({ start := state.counter, length := 2 } : Span).readFault? with
  | none =>
      rw [Span.readFault?_eq_none_iff] at refusal
      simp only [Span.stop, memorySize] at refusal
      simp only [reduceCtorEq, false_iff, not_and]
      omega
  | some cause =>
      rw [Span.readFault?_eq_some_iff] at refusal
      simp only [Span.stop, memorySize] at refusal
      obtain ⟨outside, rfl⟩ := refusal
      have past : 0xFFE < state.counter.toNat := by omega
      simp [past, eq_comm]

theorem fetch_eq_ok_iff (state : State) (word : Word) :
    state.fetch = .ok word ↔
      state.counter.toNat ≤ 0xFFE ∧
        word = Word.ofBytes (state.memory.byte state.counter.toNat)
          (state.memory.byte (state.counter.toNat + 1)) := by
  rw [fetch]
  cases refusal :
      ({ start := state.counter, length := 2 } : Span).readFault? with
  | none =>
      rw [Span.readFault?_eq_none_iff] at refusal
      simp only [Span.stop, memorySize] at refusal
      have inside : state.counter.toNat ≤ 0xFFE := by omega
      simp [inside, eq_comm]
  | some cause =>
      rw [Span.readFault?_eq_some_iff] at refusal
      simp only [Span.stop, memorySize] at refusal
      simp only [reduceCtorEq, false_iff, not_and]
      omega

end State

end ChipEight
