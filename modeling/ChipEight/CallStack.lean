import ChipEight.Layout

/-!
# The call stack

Sixteen slots for return addresses and the number of them in use.  A slot above
the depth keeps what was last put there.  The depth is a byte of its own, so a
stack may claim more slots than it has; the machine never builds such a stack.
-/

namespace ChipEight

/-- Return addresses, the latest at slot `depth - 1`. -/
structure CallStack where
  slots : Vector Word 16
  depth : UInt8
  deriving DecidableEq

namespace CallStack

def empty : CallStack :=
  { slots := Vector.replicate 16 0, depth := 0 }

/-- The content of a slot, if there is such a slot. -/
def slot? (stack : CallStack) (index : Nat) : Option Word :=
  stack.slots[index]?

/-- The number of the slot a return reads. -/
def top (stack : CallStack) : Nat :=
  stack.depth.toNat - 1

def push (stack : CallStack) (address : Word) : CallStack :=
  { slots := stack.slots.setIfInBounds stack.depth.toNat address,
    depth := stack.depth + 1 }

def pop (stack : CallStack) : CallStack :=
  { stack with depth := stack.depth - 1 }

/-- The return addresses in use, the earliest first. -/
def addresses (stack : CallStack) : List Word :=
  stack.slots.toList.take stack.depth.toNat

@[simp]
theorem depth_pop (stack : CallStack) :
    stack.pop.depth = stack.depth - 1 := rfl

@[simp]
theorem slots_pop (stack : CallStack) : stack.pop.slots = stack.slots := rfl

@[simp]
theorem depth_push (stack : CallStack) (address : Word) :
    (stack.push address).depth = stack.depth + 1 := rfl

theorem slot?_push (stack : CallStack) (address : Word) (index : Nat) :
    (stack.push address).slot? index =
      if stack.depth.toNat = index ∧ index < stackCapacity then some address
      else stack.slot? index := by
  simp only [slot?, push, stackCapacity, Vector.getElem?_setIfInBounds]
  by_cases same : stack.depth.toNat = index
  · by_cases inside : index < 16
    · simp [same, inside]
    · simp [same, inside]
  · simp [same]

end CallStack

end ChipEight
