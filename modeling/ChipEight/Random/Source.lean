import ChipEight.Random.Cipher
import ChipEight.Random.Seed

/-!
# Random sources

An endless sequence of words together with how many of them have been drawn.
A random byte is the low byte of one word.  Seeded sources read the ChaCha
stream of twelve rounds under the key of their seed.
-/

namespace ChipEight

/-- A sequence of words and the number of those drawn. -/
structure RandomSource where
  word : Nat → UInt32
  drawn : Nat

namespace RandomSource

/-- A sequence of which nothing has been drawn. -/
def ofWords (word : Nat → UInt32) : RandomSource :=
  { word := word, drawn := 0 }

def ofSeed (seed : UInt64) : RandomSource :=
  let key := Seed.key seed
  ofWords (Cipher.word 6 key)

/-- The byte at a place of the sequence. -/
def byteAt (source : RandomSource) (place : Nat) : UInt8 :=
  (source.word place).toUInt8

/-- The byte to be drawn next. -/
def byte (source : RandomSource) : UInt8 :=
  source.byteAt source.drawn

/-- The source after one more draw. -/
def next (source : RandomSource) : RandomSource :=
  { source with drawn := source.drawn + 1 }

end RandomSource

end ChipEight
