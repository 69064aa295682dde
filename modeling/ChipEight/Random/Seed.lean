import ChipEight.Layout

/-!
# Keys from seeds

A seed of one number is spread over the eight words of a key.  A linear
congruential sequence starts at the seed; every member gives one word, its
upper bits folded together and rotated by its topmost five.
-/

namespace ChipEight

namespace Seed

/-- The next member of the sequence. -/
def next (state : UInt64) : UInt64 :=
  state * 6364136223846793005 + 11634580027462260723

def rotateRight (word : UInt32) (amount : UInt32) : UInt32 :=
  (word >>> amount) ||| (word <<< (32 - amount))

/-- The word that a member of the sequence gives. -/
def output (state : UInt64) : UInt32 :=
  rotateRight (((state >>> 18) ^^^ state) >>> 27).toUInt32
    (state >>> 59).toUInt32

/-- The member a number of places after the seed. -/
def member (seed : UInt64) : Nat → UInt64
  | 0 => seed
  | place + 1 => next (member seed place)

def key (seed : UInt64) : Vector UInt32 8 :=
  Vector.ofFn fun index => output (member seed (index.val + 1))

end Seed

end ChipEight
