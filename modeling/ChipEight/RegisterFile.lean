import ChipEight.Layout

/-!
# Registers

The sixteen registers V0 to VF.  The last one doubles as the flag that
arithmetic, shifts and drawing write.  `get` is the view of a register file.
-/

namespace ChipEight

/-- The values of the registers in order. -/
structure RegisterFile where
  values : Vector UInt8 16
  deriving DecidableEq

namespace RegisterFile

def zero : RegisterFile :=
  { values := Vector.replicate 16 0 }

def get (registers : RegisterFile) (name : UInt8) : UInt8 :=
  registers.values[name.toNat]?.getD 0

def set (registers : RegisterFile) (name value : UInt8) : RegisterFile :=
  { values := registers.values.setIfInBounds name.toNat value }

def setFlag (registers : RegisterFile) (value : UInt8) : RegisterFile :=
  registers.set 0xF value

/-- The values of the first registers. -/
def firsts (registers : RegisterFile) (count : Nat) : List UInt8 :=
  registers.values.toList.take count

/-- The registers with the first of them replaced by a list of values. -/
def setFirsts (registers : RegisterFile) (values : List UInt8) :
    RegisterFile :=
  { values := Vector.ofFn fun index =>
      values[index.val]?.getD (registers.values.get index) }

@[simp]
theorem get_set (registers : RegisterFile) (name other value : UInt8) :
    (registers.set name value).get other =
      if name = other ∧ other.toNat < registerCount then value
      else registers.get other := by
  simp only [get, set, registerCount, Vector.getElem?_setIfInBounds]
  by_cases same : name = other
  · by_cases inside : other.toNat < 16
    · simp [same, inside]
    · simp [same, inside]
  · have apart : name.toNat ≠ other.toNat :=
      fun equal => same (UInt8.toNat_inj.mp equal)
    simp [same, apart]

/-- Replacing the first registers changes those there are values for. -/
theorem get_setFirsts (registers : RegisterFile) (values : List UInt8)
    {name : UInt8} (named : name.toNat < registerCount) :
    (registers.setFirsts values).get name =
      values[name.toNat]?.getD (registers.get name) := by
  simp [get, setFirsts, named, Vector.get]

theorem getElem?_firsts (registers : RegisterFile) {count : Nat}
    {name : UInt8} (named : name.toNat < registerCount)
    (first : name.toNat < count) :
    (registers.firsts count)[name.toNat]? = some (registers.get name) := by
  simp [firsts, get, first, named]

end RegisterFile

end ChipEight
