import ChipEight.Layout

/-!
# The keypad

Which of the sixteen hexadecimal keys are held down.  Bytes past the last key
name no key: they are never held down and cannot be pressed.
-/

namespace ChipEight

/-- The pressed status of the keys from zero up. -/
structure Keypad where
  status : Vector Bool 16
  deriving DecidableEq

namespace Keypad

def released : Keypad :=
  { status := Vector.replicate 16 false }

def names (key : UInt8) : Bool :=
  decide (key.toNat < keyCount)

def isDown (keypad : Keypad) (key : UInt8) : Bool :=
  keypad.status[key.toNat]?.getD false

/-- The keypad after one key was pressed or released. -/
def set (keypad : Keypad) (key : UInt8) (down : Bool) : Keypad :=
  { status := keypad.status.setIfInBounds key.toNat down }

/-- The names of all keys in ascending order. -/
def keys : List UInt8 :=
  [0x0, 0x1, 0x2, 0x3, 0x4, 0x5, 0x6, 0x7,
    0x8, 0x9, 0xA, 0xB, 0xC, 0xD, 0xE, 0xF]

def held (keypad : Keypad) : List UInt8 :=
  keys.filter keypad.isDown

def lowest? (keypad : Keypad) : Option UInt8 :=
  keys.find? keypad.isDown

@[simp]
theorem isDown_released (key : UInt8) : released.isDown key = false := by
  simp only [isDown, released]
  by_cases inside : key.toNat < 16
  · simp [inside]
  · simp [inside]

@[simp]
theorem isDown_set (keypad : Keypad) (key other : UInt8) (down : Bool) :
    (keypad.set key down).isDown other =
      if key = other ∧ other.toNat < keyCount then down
      else keypad.isDown other := by
  simp only [isDown, set, keyCount, Vector.getElem?_setIfInBounds]
  by_cases same : key = other
  · by_cases inside : other.toNat < 16
    · simp [same, inside]
    · simp [same, inside]
  · have apart : key.toNat ≠ other.toNat :=
      fun equal => same (UInt8.toNat_inj.mp equal)
    simp [same, apart]

end Keypad

end ChipEight
