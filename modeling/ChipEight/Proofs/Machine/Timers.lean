import ChipEight.Proofs.Instruction.Changes
import ChipEight.Proofs.Machine.Stepping
import ChipEight.Proofs.Machine.Transcript
import Mathlib.Data.List.Count
import Mathlib.Data.List.Range
import Mathlib.Logic.Function.Iterate

/-!
# Timers over a run

Two instructions set a timer and a reset stops both; otherwise the timers
change by their ticks alone, whatever else happens in between.  So between
settings the values follow from the number of ticks, and so does the tick that
calls for a tone.

A tone uses up a setting of the sound timer to more than zero.  A later setting
or a reset may cost a tone, but nothing else brings one.
-/

namespace ChipEight

namespace Countdown

theorem toNat_delay_iterate_next (timers : Countdown) (ticks : Nat) :
    (next^[ticks] timers).delay.toNat = timers.delay.toNat - ticks := by
  induction ticks with
  | zero => rfl
  | succ ticks ih =>
      rw [Function.iterate_succ_apply']
      simp only [next, toNat_lower, ih]
      omega

theorem toNat_sound_iterate_next (timers : Countdown) (ticks : Nat) :
    (next^[ticks] timers).sound.toNat = timers.sound.toNat - ticks := by
  induction ticks with
  | zero => rfl
  | succ ticks ih =>
      rw [Function.iterate_succ_apply']
      simp only [next, toNat_lower, ih]
      omega

theorem expires_iff (timers : Countdown) :
    timers.expires = true ↔ timers.sound.toNat = 1 := by
  rw [expires, decide_eq_true_iff, ← UInt8.toNat_inj]
  rfl

/-- Of many ticks in a row the one calls for a tone whose number is the value of
the sound timer before the first. -/
theorem expires_iterate_next (timers : Countdown) (place : Nat) :
    (next^[place] timers).expires =
      decide (place + 1 = timers.sound.toNat) := by
  rw [Bool.eq_iff_iff, expires_iff, toNat_sound_iterate_next,
    decide_eq_true_iff]
  omega

/-- The number of tones that the sound timer is good for as it stands. -/
def tonesAhead (timers : Countdown) : Nat :=
  if timers.sound = 0 then 0 else 1

theorem tonesAhead_le (timers : Countdown) : timers.tonesAhead ≤ 1 := by
  rw [tonesAhead]
  split <;> decide

/-- A tick that calls for a tone leaves none ahead. -/
theorem tonesAhead_next (timers : Countdown) :
    (if timers.expires then 1 else 0) + timers.next.tonesAhead =
      timers.tonesAhead := by
  by_cases stopped : timers.sound = 0
  · simp [expires, tonesAhead, next, lower, stopped]
  · by_cases last : timers.sound = 1
    · simp [expires, tonesAhead, next, lower, last]
    · have going : lower timers.sound ≠ 0 := by
        intro zero
        rw [← UInt8.toNat_inj, toNat_lower] at zero
        rw [← UInt8.toNat_inj] at stopped last
        simp only [UInt8.reduceToNat] at zero stopped last
        omega
      simp [expires, tonesAhead, next, stopped, last, going]

end Countdown

namespace Instruction

def setsTimer : Instruction → Bool
  | setDelay _ | setSound _ => true
  | _ => false

end Instruction

namespace Machine

/-- Whether an answer tells of a tick, and whether a tone was due at it. -/
def Answer.tone? : Answer → Option Bool
  | tone due => some due
  | _ => none

/-- What the ticks of a run were told, in order: whether a tone was due. -/
def tones (machine : Machine) (operations : List Operation) : List Bool :=
  (machine.responses operations).filterMap fun response =>
    response.answer.tone?

theorem tones_cons (machine : Machine) (operation : Operation)
    (rest : List Operation) :
    machine.tones (operation :: rest) =
      (machine.perform operation).answer.tone?.toList ++
        (machine.perform operation).machine.tones rest := by
  simp only [tones, responses, List.filterMap_cons]
  cases (machine.perform operation).answer.tone? <;> rfl

/-! ### One operation -/

/-- The timers after a step from a state, told by what the step did. -/
def Outcome.timersAfter (before : State) : Outcome → Countdown
  | executed (.setDelay x) =>
    { before.timers with delay := before.register x }
  | executed (.setSound x) =>
    { before.timers with sound := before.register x }
  | _ => before.timers

theorem timers_effect (random : UInt8) (state : State)
    (instruction : Instruction) :
    (instruction.effect random state).timers =
      (Outcome.executed instruction).timersAfter state := by
  cases instruction with
  | awaitKey x =>
      obtain ⟨registers, keypad, taken⟩ :=
        Instruction.exists_keyTaken_eq state x
      rw [Instruction.effect, taken]
      rfl
  | loadRegisters x =>
      rw [Instruction.effect]
      rfl
  | _ => rfl

theorem timersAfter_outcomeOf (state : State) (instruction : Instruction)
    (before after : State) :
    (outcomeOf instruction before after).timersAfter state =
      (Outcome.executed instruction).timersAfter state :=
  apply_outcomeOf (Outcome.timersAfter state) (fun _ => rfl) instruction
    before after

/-- Only an executed setting touches a timer in a step. -/
theorem timers_step_eq (machine : Machine) :
    machine.step.machine.state.timers =
      machine.step.answer.timersAfter machine.state := by
  have rule := machine.stepRule
  generalize machine.step = response at rule ⊢
  cases rule with
  | unfetchable past => rfl
  | unknown within fetched undecoded => rfl
  | refused within fetched decoded refusal => rfl
  | @ran word instruction counter within fetched decoded accepted continues
      next produced =>
      rw [produced]
      simp only [succeed, timersAfter_outcomeOf, timers_effect]
  | crashed within fetched decoded accepted stops => rfl

theorem timers_perform (machine : Machine) (operation : Operation) :
    (machine.perform operation).machine.state.timers =
      match operation with
      | .step => machine.step.answer.timersAfter machine.state
      | .tick => machine.state.timers.next
      | .reset => Countdown.stopped
      | _ => machine.state.timers := by
  cases operation with
  | step => exact machine.timers_step_eq
  | load program =>
      obtain ⟨memory, same⟩ := machine.exists_load_eq program
      simp only [perform, Response.map, same]
  | loadFrom reader =>
      obtain ⟨memory, same⟩ := machine.exists_loadFrom_eq reader
      simp only [perform, Response.map, same]
  | setKey key down =>
      simp only [perform, setKey, Response.map]
      split <;> rfl
  | _ => rfl

/-! ### Runs that set no timer -/

section Unset

variable {machine : Machine} {operation : Operation}
variable {operations : List Operation}

theorem timers_step_of_unset
    (unset : ∀ instruction ∈ (Answer.step machine.step.answer).executed?,
      instruction.setsTimer = false) :
    machine.step.machine.state.timers = machine.state.timers := by
  rw [timers_step_eq]
  cases outcome : machine.step.answer with
  | executed instruction =>
      rw [outcome] at unset
      have idle := unset instruction rfl
      cases instruction with
      | setDelay x => cases idle
      | setSound x => cases idle
      | _ => rfl
  | _ => rfl

theorem timers_perform_of_unset (unreset : operation ≠ .reset)
    (unset : ∀ instruction ∈ (machine.perform operation).answer.executed?,
      instruction.setsTimer = false) :
    (machine.perform operation).machine.state.timers =
      if operation = .tick then machine.state.timers.next
      else machine.state.timers := by
  cases operation with
  | step => exact timers_step_of_unset unset
  | reset => exact absurd rfl unreset
  | _ =>
      rw [timers_perform]
      rfl

theorem tone?_perform (machine : Machine) (operation : Operation) :
    (machine.perform operation).answer.tone? =
      if operation = .tick then some machine.state.timers.expires else none := by
  cases operation <;> rfl

/-- Without a setting or a reset the timers have ticked as often as they were
told to, and a tone was due at the ticks at which the sound timer expired.
Behind a first tick the others are numbered from the second on. -/
theorem timers_run_of_unset (unreset : Operation.reset ∉ operations)
    (unset : ∀ instruction ∈ machine.executions operations,
      instruction.setsTimer = false) :
    (machine.run operations).state.timers =
        Countdown.next^[operations.count .tick] machine.state.timers ∧
      machine.tones operations =
        (List.range (operations.count .tick)).map fun place =>
          (Countdown.next^[place] machine.state.timers).expires := by
  induction operations generalizing machine with
  | nil => exact ⟨rfl, rfl⟩
  | cons operation rest ih =>
      rw [List.mem_cons, not_or] at unreset
      rw [executions_cons, List.forall_mem_append] at unset
      have first := timers_perform_of_unset (Ne.symm unreset.1)
        fun instruction executed =>
          unset.1 instruction (Option.mem_toList.mpr executed)
      obtain ⟨timers, tones⟩ := ih unreset.2 unset.2
      rw [run_cons, tones_cons, timers, tones, first, tone?_perform]
      by_cases ticks : operation = .tick
      · subst ticks
        rw [if_pos rfl, if_pos rfl, List.count_cons_self,
          List.range_succ_eq_map, List.map_cons, List.map_map]
        exact ⟨rfl, rfl⟩
      · rw [if_neg ticks, if_neg ticks, List.count_cons_of_ne ticks]
        exact ⟨rfl, rfl⟩

end Unset

/-! ### Tones and settings -/

/-- Whether an operation is a step that sets the sound timer to more than
zero. -/
def startsSound (machine : Machine) (operation : Operation) : Bool :=
  match (machine.perform operation).answer.executed? with
  | some (.setSound x) => machine.state.register x != 0
  | _ => false

theorem tonesAhead_step (machine : Machine) :
    machine.step.machine.state.timers.tonesAhead ≤
      (if machine.startsSound .step then 1 else 0) +
        machine.state.timers.tonesAhead := by
  rw [timers_step_eq]
  cases outcome : machine.step.answer with
  | executed instruction =>
      cases instruction with
      | setSound x =>
          have started :
              machine.startsSound .step = (machine.state.register x != 0) := by
            simp only [startsSound, perform, Response.map, outcome,
              Answer.executed?]
          rw [started]
          by_cases silent : machine.state.register x = 0
          · simp [Outcome.timersAfter, Countdown.tonesAhead, silent]
          · have most :=
              (Outcome.timersAfter machine.state
                (.executed (.setSound x))).tonesAhead_le
            simp only [bne_iff_ne, ne_eq, silent, not_false_eq_true, if_true]
            omega
      | _ => exact Nat.le_add_left _ _
  | _ => exact Nat.le_add_left _ _

/-- A tone is paid for by the one that was ahead, and only a step that starts
the sound timer puts one ahead. -/
theorem tonesAhead_perform (machine : Machine) (operation : Operation) :
    (machine.perform operation).answer.tone?.toList.count true +
        (machine.perform operation).machine.state.timers.tonesAhead ≤
      (if machine.startsSound operation then 1 else 0) +
        machine.state.timers.tonesAhead := by
  rw [tone?_perform]
  cases operation with
  | step =>
      rw [if_neg (by simp), Option.toList_none, List.count_nil, Nat.zero_add]
      exact machine.tonesAhead_step
  | tick =>
      have ticked := machine.state.timers.tonesAhead_next
      rw [timers_perform, if_pos rfl, Option.toList_some, List.count_singleton]
      simp only [beq_true]
      omega
  | reset =>
      rw [timers_perform]
      exact Nat.zero_le _
  | _ =>
      rw [timers_perform]
      simp

/-- The tones of a run and those ahead after it were started in it or ahead
before it.  What is ahead between two operations cancels in the sum. -/
theorem count_tones_le (machine : Machine) (operations : List Operation) :
    (machine.tones operations).count true +
        (machine.run operations).state.timers.tonesAhead ≤
      (machine.stages operations).countP (fun stage =>
          stage.1.startsSound stage.2) +
        machine.state.timers.tonesAhead := by
  induction operations generalizing machine with
  | nil => exact Nat.le_refl _
  | cons operation rest ih =>
      have first := machine.tonesAhead_perform operation
      have later := ih (machine.perform operation).machine
      simp only [run_cons, tones_cons, List.count_append, stages,
        List.countP_cons]
      omega

theorem count_true_range (ticks place : Nat) :
    ((List.range ticks).map fun earlier => decide (earlier + 1 = place)).count
        true =
      if 1 ≤ place ∧ place ≤ ticks then 1 else 0 := by
  cases place with
  | zero => simp [List.count_eq_zero]
  | succ place =>
      have same : ((List.range ticks).map fun earlier =>
          decide (earlier + 1 = place + 1)).count true =
            (List.range ticks).count place := by
        rw [List.count, List.countP_map, List.count]
        apply List.countP_congr
        simp
      have reached : place ∈ List.range ticks ↔
          1 ≤ place + 1 ∧ place + 1 ≤ ticks := by
        rw [List.mem_range]
        omega
      rw [same, List.nodup_range.count]
      exact if_congr reached rfl rfl

/-- In a run without a reset that executes no setting of a timer, whatever else
it does, each timer goes down by the number of ticks or to zero, and a tone is
due at the one tick whose number is the value of the sound timer before it, if
there are as many.  In every run of a new machine there are at most as many
tones as executed settings of the sound timer to more than zero. -/
theorem timers_count_down :
    (∀ (machine : Machine) (operations : List Operation),
      Operation.reset ∉ operations →
      (∀ instruction ∈ machine.executions operations,
        instruction.setsTimer = false) →
        let ticks := operations.count .tick
        let before := machine.state.timers
        let after := (machine.run operations).state.timers
        after.delay.toNat = before.delay.toNat - ticks ∧
          after.sound.toNat = before.sound.toNat - ticks ∧
          machine.tones operations =
            ((List.range ticks).map fun place =>
              decide (place + 1 = before.sound.toNat)) ∧
          (machine.tones operations).count true =
            if 1 ≤ before.sound.toNat ∧ before.sound.toNat ≤ ticks then 1
            else 0) ∧
    ∀ (random : RandomSource) (operations : List Operation),
      ((new random).tones operations).count true ≤
        ((new random).stages operations).countP fun stage =>
          stage.1.startsSound stage.2 := by
  refine ⟨?segment, ?bound⟩
  case segment =>
    intro machine operations unreset unset ticks before after
    obtain ⟨timers, tones⟩ := timers_run_of_unset unreset unset
    simp only [Countdown.expires_iterate_next] at tones
    refine ⟨?_, ?_, tones, ?_⟩
    · rw [← Countdown.toNat_delay_iterate_next, ← timers]
    · rw [← Countdown.toNat_sound_iterate_next, ← timers]
    · rw [tones, count_true_range]
  case bound =>
    intro random operations
    have paid := (new random).count_tones_le operations
    have silent : (new random).state.timers.tonesAhead = 0 := rfl
    omega

/-- A sound timer of two calls for its tone at the second of three ticks, with
instructions, a key and a fault in between. -/
theorem timers_count_down_from_two :
    let machine := (new (RandomSource.ofWords fun _ => 0)).run
      [.load [0x61, 0x02, 0xF1, 0x18, 0x71, 0x01], .step, .step]
    let operations : List Operation :=
      [.tick, .step, .setKey 3 true, .tick, .step, .tick]
    Operation.reset ∉ operations ∧
      (∀ instruction ∈ machine.executions operations,
        instruction.setsTimer = false) ∧
      machine.tones operations = [false, true, false] := by
  intro machine operations
  have unreset : Operation.reset ∉ operations := by decide
  have facts : (∀ instruction ∈ machine.executions operations,
        instruction.setsTimer = false) ∧
      machine.state.timers.sound.toNat = 2 := by
    decide +kernel
  obtain ⟨unset, two⟩ := facts
  obtain ⟨_, _, tones, _⟩ :=
    timers_count_down.1 machine operations unreset unset
  rw [two] at tones
  exact ⟨unreset, unset, tones⟩

end Machine

end ChipEight
