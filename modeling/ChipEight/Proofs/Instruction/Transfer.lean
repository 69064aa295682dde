import ChipEight.Proofs.Instruction.Changes
import ChipEight.Proofs.Instruction.Continuation

/-!
# Registers to memory and back

Registers are stored as a block that starts at the index and loaded from one.
Both directions agree on which bytes belong to which registers, although
storing is refused near the font and loading is not; so what was stored is
loaded again whatever the registers have become, and storing what was loaded
leaves memory as it is.  The digits of a byte are written the same way and come
back as the first three registers.
-/

namespace ChipEight

namespace RegisterFile

theorem length_firsts (registers : RegisterFile) {count : Nat}
    (few : count ≤ registerCount) :
    (registers.firsts count).length = count := by
  simp only [registerCount] at few
  simp [firsts, few]

theorem get_setFirsts_of_getElem? (registers : RegisterFile)
    {values : List UInt8} {name value : UInt8}
    (named : name.toNat < registerCount)
    (found : values[name.toNat]? = some value) :
    (registers.setFirsts values).get name = value := by
  rw [get_setFirsts registers values named, found, Option.getD_some]

/-- The first registers are what they were replaced by. -/
theorem firsts_setFirsts (registers : RegisterFile) {values : List UInt8}
    (few : values.length ≤ registerCount) :
    (registers.setFirsts values).firsts values.length = values := by
  apply List.ext_getElem (length_firsts _ few)
  intro place _ inside
  simp [firsts, setFirsts, inside]

end RegisterFile

namespace State

/-- What it takes for some bytes to stand in memory from the index on. -/
structure Holds (state : State) (content : List UInt8) : Prop where
  inside : state.index.toNat + content.length ≤ memorySize
  slice : state.memory.slice state.index.toNat content.length = content

theorem holds_slice (state : State) {length : Nat}
    (inside : state.index.toNat + length ≤ memorySize) :
    state.Holds (state.memory.slice state.index.toNat length) := by
  have size := state.memory.length_slice state.index.toNat length
  exact ⟨by rw [size]; exact inside, by rw [size]⟩

end State

namespace Instruction

variable {x random second : UInt8} {before after stored : State}

/-- The digits of a byte are digits, and their value is that of the byte. -/
theorem digits_of_byte (value : UInt8) :
    value / 100 ≤ 9 ∧ value / 10 % 10 ≤ 9 ∧ value % 10 ≤ 9 ∧
      100 * (value / 100).toNat + 10 * (value / 10 % 10).toNat +
        (value % 10).toNat = value.toNat := by
  have := value.toNat_lt
  simp only [UInt8.le_iff_toNat_le, UInt8.toNat_div, UInt8.toNat_mod,
    UInt8.reduceToNat]
  omega

/-- What an instruction stored stands in memory afterwards. -/
theorem holds_of_execute {instruction : Instruction} {content : List UInt8}
    (stores : instruction.effect random before =
      Instruction.stored before content)
    (used : instruction.spanUsed? before = some (before.span content.length))
    (executed : instruction.execute random before = .ok after) :
    after.Holds content := by
  obtain ⟨accepted, _, counter, _, rfl⟩ := success_of_execute executed
  have inside := spanUsed_stop_le accepted used
  rw [stores]
  exact ⟨inside, before.memory.slice_store inside⟩

theorem named_of_storeRegisters
    (executed : (storeRegisters x).execute random before = .ok stored) :
    x.toNat < registerCount := by
  obtain ⟨_, present, _⟩ := success_of_execute executed
  simpa [missingRegister?, usedRegisters, namedRegisters] using present

theorem encodable_of_named (named : x.toNat < registerCount) :
    (loadRegisters x).Encodable ∧ (storeRegisters x).Encodable := by
  simpa [Encodable, namedRegisters] using named

/-- Loading puts the bytes that stand at the index into the first registers. -/
theorem execute_loadRegisters {content : List UInt8} {state : State}
    (holds : state.Holds content) (named : x.toNat < registerCount)
    (size : content.length = x.toNat + 1)
    (fits : state.counter.toNat + 2 < 65536) (random : UInt8) :
    (loadRegisters x).execute random state =
      .ok { state with
        registers := state.registers.setFirsts content
        counter := state.counter + 2 } := by
  obtain ⟨inside, slice⟩ := holds
  rw [size] at inside slice
  have accepted : (loadRegisters x).fault? state = none :=
    (Span.readFault?_eq_none_iff _).mpr inside
  rw [execute_of_isStraight rfl (encodable_of_named named).1 accepted fits
    random, effect, slice]

/-- The registers past the last one loaded and all of memory stay as they
were. -/
theorem exists_loaded {content : List UInt8} {state : State}
    (holds : state.Holds content) (named : x.toNat < registerCount)
    (size : content.length = x.toNat + 1)
    (fits : state.counter.toNat + 2 < 65536) (random : UInt8) :
    ∃ loaded, (loadRegisters x).execute random state = .ok loaded ∧
      (∀ name value, content[name.toNat]? = some value →
        loaded.register name = value) ∧
      (∀ name, x < name → loaded.register name = state.register name) ∧
      loaded.memory = state.memory := by
  refine ⟨_, execute_loadRegisters holds named size fits random, ?first,
    ?others, rfl⟩
  case first =>
    intro name value found
    have place := (List.getElem?_eq_some_iff.mp found).1
    exact state.registers.get_setFirsts_of_getElem? (by omega) found
  case others =>
    intro name past
    rw [UInt8.lt_iff_toNat_lt] at past
    apply state.registers.get_setFirsts_of_le
    omega

/-- What was stored of the registers is loaded again, whatever they are by
then. -/
theorem exists_loaded_of_stored
    (executed : (storeRegisters x).execute random before = .ok stored)
    (registers : RegisterFile) (fits : stored.counter.toNat + 2 < 65536)
    (second : UInt8) :
    ∃ loaded,
      (loadRegisters x).execute second
          { stored with registers := registers } = .ok loaded ∧
        (∀ name, name ≤ x → loaded.register name = before.register name) ∧
        (∀ name, x < name → loaded.register name = registers.get name) ∧
        loaded.memory = stored.memory := by
  have named := named_of_storeRegisters executed
  have size := before.registers.length_firsts (Nat.succ_le_of_lt named)
  have used : (storeRegisters x).spanUsed? before =
      some (before.span (before.registers.firsts (x.toNat + 1)).length) := by
    rw [size]
    rfl
  obtain ⟨inside, slice⟩ := holds_of_execute (by rw [effect]) used executed
  have holds : State.Holds { stored with registers := registers }
      (before.registers.firsts (x.toNat + 1)) := ⟨inside, slice⟩
  obtain ⟨loaded, loads, firsts, others, kept⟩ :=
    exists_loaded holds named size fits second
  refine ⟨loaded, loads, ?_, others, kept⟩
  intro name upTo
  rw [UInt8.le_iff_toNat_le] at upTo
  exact firsts name _
    (before.registers.getElem?_firsts (by omega) (by omega))

/-- Where a block may be written, storing writes the first registers there. -/
theorem exists_stored (state : State) (named : x.toNat < registerCount)
    (writable : (state.span (x.toNat + 1)).writeFault? = none)
    (fits : state.counter.toNat + 2 < 65536) (random : UInt8) :
    ∃ stored, (storeRegisters x).execute random state = .ok stored ∧
      stored.memory = state.memory.store state.index.toNat
        (state.registers.firsts (x.toNat + 1)) :=
  ⟨_, execute_of_isStraight rfl (encodable_of_named named).2 writable fits
    random, rfl⟩

/-- Storing what was loaded leaves memory as it was, where it may be stored. -/
theorem exists_stored_of_loaded (named : x.toNat < registerCount)
    (writable : (before.span (x.toNat + 1)).writeFault? = none)
    (fits : before.counter.toNat + 4 < 65536) (first second : UInt8) :
    ∃ loaded stored,
      (loadRegisters x).execute first before = .ok loaded ∧
        (storeRegisters x).execute second loaded = .ok stored ∧
        stored.memory = before.memory := by
  have holds :=
    before.holds_slice ((Span.writeFault?_eq_none_iff _).mp writable).1
  rw [State.span] at holds
  generalize taken :
    before.memory.slice before.index.toNat (x.toNat + 1) = block at holds
  have size : block.length = x.toNat + 1 := by
    rw [← taken, Memory.length_slice]
  have loads := execute_loadRegisters holds named size (by omega) first
  generalize after : ({ before with
    registers := before.registers.setFirsts block
    counter := before.counter + 2 } : State) = loaded at loads
  have moved : loaded.counter.toNat + 2 < 65536 := by
    simp only [← after, UInt16.toNat_add, UInt16.reduceToNat]
    omega
  have accepted : (loaded.span (x.toNat + 1)).writeFault? = none := by
    rw [State.span, ← after]
    exact writable
  have same : loaded.registers.firsts (x.toNat + 1) = block := by
    rw [← after, ← size]
    exact before.registers.firsts_setFirsts (by rw [size]; exact named)
  obtain ⟨stored, stores, written⟩ := exists_stored loaded named accepted
    moved second
  refine ⟨loaded, stored, loads, stores, ?_⟩
  calc
    stored.memory = loaded.memory.store loaded.index.toNat
        (loaded.registers.firsts (x.toNat + 1)) := written
    _ = before.memory.store before.index.toNat block := by rw [same, ← after]
    _ = before.memory := by rw [← taken, Memory.store_slice]

/-- The digits that were written of a byte are loaded into the first three
registers. -/
theorem exists_loaded_of_digits
    (executed : (storeDecimal x).execute random before = .ok stored)
    (fits : stored.counter.toNat + 2 < 65536) (second : UInt8) :
    ∃ loaded, (loadRegisters 2).execute second stored = .ok loaded ∧
      [loaded.register 0, loaded.register 1, loaded.register 2] =
        decimalDigits (before.register x) ∧
      loaded.memory = stored.memory := by
  have holds : stored.Holds (decimalDigits (before.register x)) :=
    holds_of_execute (by rw [effect]) rfl executed
  obtain ⟨loaded, loads, firsts, _, kept⟩ :=
    exists_loaded (x := 2) holds (by decide) rfl fits second
  refine ⟨loaded, loads, ?_, kept⟩
  rw [firsts 0 _ rfl, firsts 1 _ rfl, firsts 2 _ rfl, decimalDigits]

/-- Only the three bytes at the index are written when digits are. -/
theorem byte_of_storeDecimal
    (executed : (storeDecimal x).execute random before = .ok stored)
    {address : Nat} (outside : address < before.index.toNat ∨
      before.index.toNat + 3 ≤ address) :
    stored.memory.byte address = before.memory.byte address := by
  obtain ⟨_, _, counter, _, rfl⟩ := success_of_execute executed
  exact Memory.byte_store_of_outside _ _ outside

theorem index_of_transfer {instruction : Instruction}
    (transfers : instruction ∈
      [storeDecimal x, storeRegisters x, loadRegisters x])
    (executed : instruction.execute random before = .ok after) :
    after.index = before.index := by
  obtain ⟨_, _, counter, _, rfl⟩ := success_of_execute executed
  have kept : (instruction.effect random before).index = before.index := by
    apply index_effect
    simp only [List.mem_cons, List.not_mem_nil, or_false] at transfers
    obtain rfl | rfl | rfl := transfers <;> simp
  exact kept

/-- Registers that were stored are loaded again, over whatever registers there
are by then, and the registers past the last one stored are left alone.  Where
a block may be written, storing the registers that were loaded from it leaves
all of memory as it was.  The digits that were written of a byte are loaded as
digits of the same value, and only three bytes were written.  The index stays
where it is throughout. -/
theorem transfers_round_trip :
    (∀ (x first second : UInt8) (before stored : State),
      (storeRegisters x).execute first before = .ok stored →
        ∀ registers : RegisterFile, stored.counter.toNat + 2 < 65536 →
          ∃ loaded,
            (loadRegisters x).execute second
                { stored with registers := registers } = .ok loaded ∧
              (∀ name, name ≤ x →
                loaded.register name = before.register name) ∧
              (∀ name, x < name →
                loaded.register name = registers.get name) ∧
              loaded.memory = stored.memory) ∧
      (∀ (x first second : UInt8) (before : State),
        x.toNat < registerCount →
        Memory.checkWritable (before.span (x.toNat + 1)) = .ok () →
        before.counter.toNat + 4 < 65536 →
          ∃ loaded stored,
            (loadRegisters x).execute first before = .ok loaded ∧
              (storeRegisters x).execute second loaded = .ok stored ∧
              stored.memory = before.memory) ∧
      (∀ (x first second : UInt8) (before stored : State),
        (storeDecimal x).execute first before = .ok stored →
          (∀ address, address < before.index.toNat ∨
              before.index.toNat + 3 ≤ address →
            stored.memory.byte address = before.memory.byte address) ∧
          (stored.counter.toNat + 2 < 65536 →
            ∃ loaded,
              (loadRegisters 2).execute second stored = .ok loaded ∧
                loaded.register 0 ≤ 9 ∧ loaded.register 1 ≤ 9 ∧
                loaded.register 2 ≤ 9 ∧
                100 * (loaded.register 0).toNat +
                    10 * (loaded.register 1).toNat +
                    (loaded.register 2).toNat =
                  (before.register x).toNat ∧
                loaded.memory = stored.memory)) ∧
      ∀ (x random : UInt8) (before after : State),
        ∀ instruction ∈ [storeDecimal x, storeRegisters x, loadRegisters x],
          instruction.execute random before = .ok after →
            after.index = before.index := by
  refine ⟨?registers, ?memory, ?digits, ?index⟩
  case registers =>
    intro x first second before stored executed registers fits
    exact exists_loaded_of_stored executed registers fits second
  case memory =>
    intro x first second before named writable fits
    apply exists_stored_of_loaded named _ fits
    rw [Memory.checkWritable] at writable
    split at writable
    · cases writable
    · assumption
  case digits =>
    intro x first second before stored executed
    constructor
    · intro address outside
      exact byte_of_storeDecimal executed outside
    · intro fits
      obtain ⟨loaded, loads, digits, kept⟩ :=
        exists_loaded_of_digits executed fits second
      have value := digits_of_byte (before.register x)
      simp only [decimalDigits, List.cons.injEq] at digits
      obtain ⟨hundreds, tens, ones, _⟩ := digits
      rw [← hundreds, ← tens, ← ones] at value
      obtain ⟨first, second, third, sum⟩ := value
      exact ⟨loaded, loads, first, second, third, sum, kept⟩
  case index =>
    intro x random before after instruction transfers executed
    exact index_of_transfer transfers executed

end Instruction

end ChipEight
