import ChipEight.Font

/-!
# Memory

The 4096 bytes a machine addresses.  `byte` is the view that everything else is
said by: what a write does is told by the bytes it changes.  Addresses past the
end read as zero and ignore writes; the machine never gets to use them, because
every access is checked first (see `ChipEight.Memory.Span`).
-/

namespace ChipEight

structure Memory where
  bytes : Vector UInt8 4096
  deriving DecidableEq

namespace Memory

def byte (memory : Memory) (address : Nat) : UInt8 :=
  memory.bytes[address]?.getD 0

/-- The bytes from an address on. -/
def slice (memory : Memory) (start length : Nat) : List UInt8 :=
  (List.range length).map fun offset => memory.byte (start + offset)

def write (memory : Memory) (address : Nat) (value : UInt8) : Memory :=
  { bytes := memory.bytes.setIfInBounds address value }

/-- Writes bytes to successive addresses. -/
def store (memory : Memory) (start : Nat) : List UInt8 → Memory
  | [] => memory
  | value :: rest => (memory.write start value).store (start + 1) rest

def blank : Memory :=
  { bytes := Vector.replicate 4096 0 }

/-- The memory of a new machine, which holds the font alone. -/
def initial : Memory :=
  blank.store fontStart.toNat Font.bytes

@[simp]
theorem byte_write (memory : Memory) (address other : Nat) (value : UInt8) :
    (memory.write address value).byte other =
      if address = other ∧ other < memorySize then value
      else memory.byte other := by
  simp only [byte, write, memorySize, Vector.getElem?_setIfInBounds]
  by_cases same : address = other
  · by_cases inside : other < 4096
    · simp [same, inside]
    · simp [same, inside]
  · simp [same]

@[simp]
theorem length_slice (memory : Memory) (start length : Nat) :
    (memory.slice start length).length = length := by
  simp [slice]

theorem getElem?_slice (memory : Memory) {start length offset : Nat}
    (inside : offset < length) :
    (memory.slice start length)[offset]? =
      some (memory.byte (start + offset)) := by
  simp [slice, inside]

/-- Writing bytes changes those they are written to and no others. -/
theorem byte_store (content : List UInt8) :
    ∀ (memory : Memory) (start address : Nat),
      (memory.store start content).byte address =
        if start ≤ address ∧ address < memorySize then
          content[address - start]?.getD (memory.byte address)
        else
          memory.byte address := by
  induction content with
  | nil =>
    intro memory start address
    simp [store]
  | cons value rest ih =>
    intro memory start address
    rw [store, ih, byte_write]
    by_cases first : start = address
    · subst first
      have past : ¬ start + 1 ≤ start := by omega
      by_cases inside : start < memorySize
      · simp [past, inside]
      · simp [past, inside]
    · by_cases later : start + 1 ≤ address
      · have place : address - start = address - (start + 1) + 1 := by omega
        have reached : start ≤ address := by omega
        simp [first, later, reached, place]
      · have before : ¬ start ≤ address := by omega
        simp [first, later, before]

end Memory

end ChipEight
