import ChipEight.Memory

/-!
# Contents of memory

What stands at a range of addresses, before and after something is written.
-/

namespace ChipEight

namespace Memory

/-- A range of addresses holds some bytes if each of them is in its place. -/
theorem slice_eq_iff (memory : Memory) (start : Nat) (content : List UInt8) :
    memory.slice start content.length = content ↔
      ∀ offset byte, content[offset]? = some byte →
        memory.byte (start + offset) = byte := by
  constructor
  · intro same offset byte found
    obtain ⟨inside, _⟩ := List.getElem?_eq_some_iff.mp found
    have read : (memory.slice start content.length)[offset]? =
        some (memory.byte (start + offset)) :=
      memory.getElem?_slice inside
    rw [same, found] at read
    exact (Option.some.inj read).symm
  · intro each
    apply List.ext_getElem?
    intro offset
    by_cases inside : offset < content.length
    · rw [memory.getElem?_slice inside,
        each offset _ (List.getElem?_eq_getElem inside),
        List.getElem?_eq_getElem inside]
    · rw [List.getElem?_eq_none (by simpa using inside),
        List.getElem?_eq_none (by simpa using inside)]

theorem slice_part {memory : Memory} {start : Nat} {content : List UInt8}
    (holds : memory.slice start content.length = content)
    {offset length : Nat} (inside : offset + length ≤ content.length) :
    memory.slice (start + offset) length =
      (content.drop offset).take length := by
  have size : ((content.drop offset).take length).length = length := by
    simp only [List.length_take, List.length_drop]
    omega
  have part := memory.slice_eq_iff (start + offset)
    ((content.drop offset).take length)
  rw [size] at part
  rw [part]
  intro place byte found
  have below : place < length := by
    have := (List.getElem?_eq_some_iff.mp found).1
    omega
  rw [List.getElem?_take_of_lt below, List.getElem?_drop] at found
  rw [Nat.add_assoc]
  exact (memory.slice_eq_iff start content).mp holds _ _ found

/-- Writing leaves every byte alone that is not written to. -/
theorem byte_store_of_outside (memory : Memory) (content : List UInt8)
    {start address : Nat}
    (outside : address < start ∨ start + content.length ≤ address) :
    (memory.store start content).byte address = memory.byte address := by
  rw [byte_store]
  split
  · rw [List.getElem?_eq_none (by omega), Option.getD_none]
  · rfl

theorem byte_store_of_getElem? (memory : Memory) {start offset : Nat}
    {content : List UInt8} {value : UInt8}
    (fits : start + content.length ≤ memorySize)
    (found : content[offset]? = some value) :
    (memory.store start content).byte (start + offset) = value := by
  obtain ⟨inside, _⟩ := List.getElem?_eq_some_iff.mp found
  have reached : start ≤ start + offset ∧ start + offset < memorySize := by
    omega
  rw [byte_store, if_pos reached, Nat.add_sub_cancel_left, found,
    Option.getD_some]

theorem slice_store (memory : Memory) {start : Nat} {content : List UInt8}
    (fits : start + content.length ≤ memorySize) :
    (memory.store start content).slice start content.length = content := by
  rw [slice_eq_iff]
  intro offset byte found
  exact memory.byte_store_of_getElem? fits found

/-- Memories that hold the same bytes are the same. -/
theorem eq_of_byte_eq {first second : Memory}
    (same : ∀ address, first.byte address = second.byte address) :
    first = second := by
  obtain ⟨firstBytes⟩ := first
  obtain ⟨secondBytes⟩ := second
  congr 1
  apply Vector.ext
  intro address inside
  simpa [byte, inside] using same address

/-- Writing back what was read changes nothing. -/
theorem store_slice (memory : Memory) (start length : Nat) :
    memory.store start (memory.slice start length) = memory := by
  apply eq_of_byte_eq
  intro address
  rw [byte_store]
  by_cases reached : start ≤ address ∧ address < memorySize
  · rw [if_pos reached]
    by_cases inside : address - start < length
    · rw [memory.getElem?_slice inside, Option.getD_some,
        Nat.add_sub_cancel' reached.1]
    · rw [List.getElem?_eq_none (by simpa using inside), Option.getD_none]
  · rw [if_neg reached]

end Memory

end ChipEight
