import Mathlib.Order.Bounds.Basic
import Mathlib.Order.Interval.Set.LinearOrder
import ChipEight.Proofs.Instruction.Decoding
import ChipEight.Proofs.Instruction.Footprint

/-!
# When instructions are refused

The check of a span compares its two ends with the end of memory and with the
ends of the font, and reports a maximum.  Here the same is said by addresses: a
span is refused because of an address in it, and the fault names the least one
at fault.  Calls and returns are refused by the depth of the stack, and nothing
else is ever refused.
-/

namespace ChipEight

namespace Span

/-- The addresses of a span. -/
def addresses (span : Span) : Set Nat :=
  Set.Ico span.start.toNat span.stop

/-- The addresses of a span that lie past the end of memory. -/
def outside (span : Span) : Set Nat :=
  span.addresses ∩ Set.Ici memorySize

/-- The addresses of a span that belong to the font. -/
def inFont (span : Span) : Set Nat :=
  span.addresses ∩ Set.Ico fontStart.toNat fontEnd.toNat

theorem isLeast_Ico_iff {first last least : Nat} :
    IsLeast (Set.Ico first last) least ↔ first < last ∧ least = first := by
  constructor
  · intro isLeast
    have filled : first < last := Set.nonempty_Ico.mp isLeast.nonempty
    exact ⟨filled, isLeast.unique (isLeast_Ico filled)⟩
  · rintro ⟨filled, rfl⟩
    exact isLeast_Ico filled

theorem isLeast_outside_iff {span : Span} (filled : 0 < span.length)
    (address : Word) :
    IsLeast span.outside address.toNat ↔
      memorySize < span.stop ∧ address = max span.start 0x1000 := by
  have meets : max span.start.toNat memorySize < span.stop ↔
      memorySize < span.stop := by
    rw [stop]
    omega
  rw [outside, addresses, Set.Ico_inter_Ici, isLeast_Ico_iff, meets,
    ← UInt16.toNat_inj, UInt16.toNat_max]
  rfl

theorem isLeast_inFont_iff {span : Span} (filled : 0 < span.length)
    (address : Word) :
    IsLeast span.inFont address.toNat ↔
      (span.start.toNat < fontEnd.toNat ∧ fontStart.toNat < span.stop) ∧
        address = max span.start fontStart := by
  have meets : max span.start.toNat fontStart.toNat <
        min span.stop fontEnd.toNat ↔
      span.start.toNat < fontEnd.toNat ∧ fontStart.toNat < span.stop := by
    simp only [stop, fontStart, fontEnd, UInt16.reduceToNat]
    omega
  rw [inFont, addresses, Set.Ico_inter_Ico, isLeast_Ico_iff, meets,
    ← UInt16.toNat_inj, UInt16.toNat_max]

theorem outside_eq_empty_iff {span : Span} (filled : 0 < span.length) :
    span.outside = ∅ ↔ span.stop ≤ memorySize := by
  rw [outside, addresses, Set.Ico_inter_Ici, Set.Ico_eq_empty_iff]
  simp only [stop]
  omega

/-- The least address past the end of memory is a word. -/
theorem exists_isLeast_outside (span : Span) (past : span.outside.Nonempty) :
    ∃ address : Word, IsLeast span.outside address.toNat := by
  obtain ⟨place, ⟨first, last⟩, beyond⟩ := past
  refine ⟨_, (isLeast_outside_iff ?_ _).mpr ⟨?_, rfl⟩⟩
  · rw [stop] at last
    omega
  · exact Nat.lt_of_le_of_lt beyond last

theorem exists_isLeast_inFont (span : Span) (meets : span.inFont.Nonempty) :
    ∃ address : Word, IsLeast span.inFont address.toNat := by
  obtain ⟨place, ⟨first, last⟩, fontFirst, fontLast⟩ := meets
  refine ⟨_, (isLeast_inFont_iff ?_ _).mpr ⟨⟨?_, ?_⟩, rfl⟩⟩
  · rw [stop] at last
    omega
  · exact Nat.lt_of_le_of_lt first fontLast
  · exact Nat.lt_of_le_of_lt fontFirst last

theorem readFault?_eq_some_iff_isLeast {span : Span}
    (filled : 0 < span.length) (fault : Fault) :
    span.readFault? = some fault ↔
      ∃ address, fault = .outOfRange address ∧
        IsLeast span.outside address.toNat := by
  rw [readFault?_eq_some_iff]
  constructor
  · rintro ⟨past, rfl⟩
    exact ⟨_, rfl, (isLeast_outside_iff filled _).mpr ⟨past, rfl⟩⟩
  · rintro ⟨address, rfl, least⟩
    obtain ⟨past, rfl⟩ := (isLeast_outside_iff filled address).mp least
    exact ⟨past, rfl⟩

/-- The end of memory is looked at before the font. -/
theorem writeFault?_eq_some_iff_isLeast {span : Span}
    (filled : 0 < span.length) (fault : Fault) :
    span.writeFault? = some fault ↔
      (∃ address, fault = .outOfRange address ∧
          IsLeast span.outside address.toNat) ∨
        span.outside = ∅ ∧
          ∃ address, fault = .protectedWrite address ∧
            IsLeast span.inFont address.toNat := by
  rw [← readFault?_eq_some_iff_isLeast filled, outside_eq_empty_iff filled,
    ← readFault?_eq_none_iff, writeFault?]
  cases span.readFault? with
  | some cause => simp
  | none =>
      simp only [reduceCtorEq, false_or, true_and]
      constructor
      · intro refused
        split at refused
        · next meets =>
          cases refused
          exact ⟨_, rfl, (isLeast_inFont_iff filled _).mpr ⟨meets, rfl⟩⟩
        · cases refused
      · rintro ⟨address, rfl, least⟩
        obtain ⟨meets, rfl⟩ := (isLeast_inFont_iff filled address).mp least
        rw [if_pos meets]

end Span

/-- What a state refuses to execute, and with what fault. -/
inductive State.Refuses (state : State) : Instruction → Fault → Prop
  | emptyStack (empty : state.stack.depth.toNat = 0) :
      Refuses state .leave (.stackUnderflow state.counter)
  | fullStack {target : Word}
      (full : stackCapacity ≤ state.stack.depth.toNat) :
      Refuses state (.call target) (.stackOverflow state.counter)
  | pastMemory {instruction : Instruction} {span : Span} {address : Word}
      (used : instruction.spanUsed? state = some span)
      (least : IsLeast span.outside address.toNat) :
      Refuses state instruction (.outOfRange address)
  /-- A sprite without rows has no address to blame but its start. -/
  | emptySprite {x y : UInt8} (past : memorySize < state.index.toNat) :
      Refuses state (.draw x y 0) (.outOfRange state.index)
  | intoFont {instruction : Instruction} {span : Span} {address : Word}
      (writes : instruction.writesMemory = true)
      (used : instruction.spanUsed? state = some span)
      (inside : span.outside = ∅)
      (least : IsLeast span.inFont address.toNat) :
      Refuses state instruction (.protectedWrite address)

namespace Instruction

variable {state : State} {fault : Fault}

theorem fault?_leave_iff :
    leave.fault? state = some fault ↔ state.Refuses leave fault := by
  simp only [fault?, Option.ite_none_right_eq_some, Option.some.injEq]
  constructor
  · rintro ⟨empty, rfl⟩
    exact .emptyStack (by rw [empty]; rfl)
  · rintro (empty | _ | used | _ | ⟨writes, used⟩)
    · exact ⟨UInt8.toNat_inj.mp empty, rfl⟩
    · cases used
    · cases used

theorem fault?_call_iff {target : Word} :
    (call target).fault? state = some fault ↔
      state.Refuses (call target) fault := by
  simp only [fault?, Option.ite_none_right_eq_some, Option.some.injEq]
  constructor
  · rintro ⟨full, rfl⟩
    exact .fullStack full
  · rintro (_ | full | used | _ | ⟨writes, used⟩)
    · exact ⟨full, rfl⟩
    · cases used
    · cases used

/-- An instruction that reads a span is refused as the span is. -/
theorem readFault?_iff_refuses {instruction : Instruction} {span : Span}
    (used : instruction.spanUsed? state = some span)
    (reads : instruction.writesMemory = false) (filled : 0 < span.length) :
    span.readFault? = some fault ↔ state.Refuses instruction fault := by
  rw [Span.readFault?_eq_some_iff_isLeast filled]
  constructor
  · rintro ⟨address, rfl, least⟩
    exact .pastMemory used least
  · rintro (_ | _ | ⟨other, least⟩ | _ | ⟨writes, _⟩)
    · cases used
    · cases used
    · cases used.symm.trans other
      exact ⟨_, rfl, least⟩
    · cases used
      exact absurd filled (by simp [State.span])
    · cases reads.symm.trans writes

theorem writeFault?_iff_refuses {instruction : Instruction} {span : Span}
    (used : instruction.spanUsed? state = some span)
    (writes : instruction.writesMemory = true) (filled : 0 < span.length) :
    span.writeFault? = some fault ↔ state.Refuses instruction fault := by
  rw [Span.writeFault?_eq_some_iff_isLeast filled]
  constructor
  · rintro (⟨address, rfl, least⟩ | ⟨inside, address, rfl, least⟩)
    · exact .pastMemory used least
    · exact .intoFont writes used inside least
  · rintro (_ | _ | ⟨other, least⟩ | _ | ⟨_, other, inside, least⟩)
    · cases used
    · cases used
    · cases used.symm.trans other
      exact .inl ⟨_, rfl, least⟩
    · cases writes
    · cases used.symm.trans other
      exact .inr ⟨inside, _, rfl, least⟩

/-- A sprite without rows is refused if it starts past the end of memory; to
start right at the end is allowed. -/
theorem fault?_emptySprite_iff {x y : UInt8} :
    (draw x y 0).fault? state = some fault ↔
      state.Refuses (draw x y 0) fault := by
  have empty : (state.span 0).outside = ∅ := by
    simp [Span.outside, Span.addresses, Span.stop, State.span]
  have start : memorySize < state.index.toNat →
      max state.index 0x1000 = state.index := by
    intro past
    rw [← UInt16.toNat_inj, UInt16.toNat_max]
    simp only [UInt16.reduceToNat, memorySize] at past ⊢
    omega
  rw [fault?, UInt8.toNat_zero, Span.readFault?_eq_some_iff]
  simp only [Span.stop, State.span, Nat.add_zero]
  constructor
  · rintro ⟨past, rfl⟩
    rw [start past]
    exact .emptySprite past
  · rintro (_ | _ | ⟨used, least⟩ | past | ⟨writes, _⟩)
    · cases used
      exact absurd least.1 (by rw [UInt8.toNat_zero, empty]; exact id)
    · exact ⟨past, by rw [start past]⟩
    · cases writes

theorem fault?_eq_some_iff (instruction : Instruction) :
    instruction.fault? state = some fault ↔
      state.Refuses instruction fault := by
  cases instruction with
  | leave => exact fault?_leave_iff
  | call target => exact fault?_call_iff
  | draw x y height =>
      by_cases rowless : height = 0
      · rw [rowless]
        exact fault?_emptySprite_iff
      · have filled : 0 < height.toNat := by
          by_contra zero
          exact rowless (UInt8.toNat_inj.mp (Nat.eq_zero_of_not_pos zero))
        exact readFault?_iff_refuses rfl rfl filled
  | loadRegisters x => exact readFault?_iff_refuses rfl rfl (Nat.succ_pos _)
  | storeDecimal x => exact writeFault?_iff_refuses rfl rfl (Nat.succ_pos _)
  | storeRegisters x => exact writeFault?_iff_refuses rfl rfl (Nat.succ_pos _)
  | _ =>
      refine iff_of_false (by simp [fault?]) ?_
      rintro (_ | _ | used | _ | ⟨writes, used⟩)
      all_goals cases used

/-- The fault of an execution is the one that its check finds. -/
theorem execute_eq_fault_iff {instruction : Instruction}
    (encodable : instruction.Encodable) (random : UInt8) :
    instruction.execute random state = .error (.fault fault) ↔
      instruction.fault? state = some fault := by
  rw [execute_of_encodable encodable]
  cases instruction.fault? state with
  | some cause => simp
  | none => cases instruction.continuation state <;> simp

/-- A decoded instruction fails exactly if the state refuses it, and with that
fault.  A span with an address past the end of memory is always refused, and so
is a span within memory that is to be written and meets the font; the fault
names the least address there. -/
theorem execute_fails_iff_refused {word : Word} {instruction : Instruction}
    (decoded : decode word = some instruction) (random : UInt8)
    (state : State) :
    (∀ fault, instruction.execute random state = .error (.fault fault) ↔
        state.Refuses instruction fault) ∧
      ∀ span, instruction.spanUsed? state = some span →
        (span.outside.Nonempty →
          ∃ address, IsLeast span.outside address.toNat ∧
            instruction.execute random state =
              .error (.fault (.outOfRange address))) ∧
        (instruction.writesMemory = true → span.outside = ∅ →
          span.inFont.Nonempty →
            ∃ address, IsLeast span.inFont address.toNat ∧
              instruction.execute random state =
                .error (.fault (.protectedWrite address))) := by
  have fails_iff : ∀ fault,
      instruction.execute random state = .error (.fault fault) ↔
        state.Refuses instruction fault := by
    intro fault
    rw [execute_eq_fault_iff (encodable_of_decode decoded),
      fault?_eq_some_iff]
  refine ⟨fails_iff, ?_⟩
  intro span used
  constructor
  · intro past
    obtain ⟨address, least⟩ := span.exists_isLeast_outside past
    exact ⟨address, least, (fails_iff _).mpr (.pastMemory used least)⟩
  · intro writes inside meets
    obtain ⟨address, least⟩ := span.exists_isLeast_inFont meets
    exact ⟨address, least, (fails_iff _).mpr (.intoFont writes used inside least)⟩

/-- Five registers stored two bytes before the font are refused at its first
byte. -/
theorem storeRegisters_refused_before_font :
    decode 0xF455 = some (storeRegisters 4) ∧
      (storeRegisters 4).execute 0 { State.initial with index := 0x4E } =
        .error (.fault (.protectedWrite 0x50)) := by
  refine ⟨by decide, ?_⟩
  have inside :
      ({ start := 0x4E, length := 5 } : Span).outside = ∅ :=
    (Span.outside_eq_empty_iff (by decide)).mpr (by decide)
  have least :
      IsLeast ({ start := 0x4E, length := 5 } : Span).inFont
        (0x50 : Word).toNat :=
    (Span.isLeast_inFont_iff (by decide) _).mpr (by decide)
  exact ((execute_fails_iff_refused (by decide : decode 0xF455 = _) 0
    { State.initial with index := 0x4E }).1 _).mpr
      (.intoFont rfl rfl inside least)

end Instruction

end ChipEight
