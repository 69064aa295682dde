import Mathlib.Tactic.ByContra
import ChipEight.Keypad

/-!
# Keys that are down

Only the sixteen keys of the keypad are ever down, and `Keypad.keys` lists them
in order, so the first one found in it is the lowest.
-/

namespace ChipEight

namespace Keypad

theorem mem_keys_iff (key : UInt8) : key ∈ keys ↔ key.toNat < keyCount := by
  simp only [keys, List.mem_cons, List.not_mem_nil, or_false,
    ← UInt8.toNat_inj, UInt8.reduceToNat, keyCount]
  omega

theorem names_of_isDown {keypad : Keypad} {key : UInt8}
    (down : keypad.isDown key = true) : key.toNat < keyCount := by
  by_contra past
  rw [isDown, Vector.getElem?_eq_none (by simpa using past)] at down
  cases down

theorem lowest?_eq_none_iff (keypad : Keypad) :
    keypad.lowest? = none ↔ ¬ ∃ key, keypad.isDown key = true := by
  rw [lowest?, List.find?_eq_none]
  constructor
  · rintro up ⟨key, down⟩
    exact up key ((mem_keys_iff key).mpr (names_of_isDown down)) down
  · intro up key _ down
    exact up ⟨key, down⟩

theorem toNat_getElem_keys : ∀ place : Fin keys.length,
    keys[place].toNat = place.val := by
  decide

/-- The lowest key is a key that is down, and no lower one is down. -/
theorem lowest_of_lowest? {keypad : Keypad} {key : UInt8}
    (lowest : keypad.lowest? = some key) :
    key.toNat < keyCount ∧ keypad.isDown key = true ∧
      ∀ lower < key, keypad.isDown lower = false := by
  obtain ⟨down, place, inside, found, earlier⟩ :=
    List.find?_eq_some_iff_getElem.mp lowest
  have named : key.toNat = place := by
    rw [← found]
    exact toNat_getElem_keys ⟨place, inside⟩
  refine ⟨by rw [named]; exact inside, down, ?_⟩
  intro lower below
  rw [UInt8.lt_iff_toNat_lt, named] at below
  have listed : lower.toNat < keys.length := by omega
  have same : keys[lower.toNat] = lower :=
    UInt8.toNat_inj.mp (toNat_getElem_keys ⟨lower.toNat, listed⟩)
  have up := earlier lower.toNat below
  rw [same] at up
  simpa using up

end Keypad

end ChipEight
