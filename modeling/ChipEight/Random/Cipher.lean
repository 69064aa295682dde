import ChipEight.Layout

/-!
# The ChaCha block function

A block of sixteen words is made from a key of eight words and the number of
the block by adding to a starting arrangement what a number of double rounds
turns it into.  The stream of a key runs through the words of block zero, then
those of block one, and so on.
-/

namespace ChipEight

namespace Cipher

/-- The sixteen words that rounds work on. -/
abbrev Block := Vector UInt32 16

def rotateLeft (word : UInt32) (amount : UInt32) : UInt32 :=
  (word <<< amount) ||| (word >>> (32 - amount))

/-- Mixes the words at four places. -/
def quarterRound (block : Block) (a b c d : Fin 16) : Block :=
  let wordA := block.get a + block.get b
  let wordD := rotateLeft (block.get d ^^^ wordA) 16
  let wordC := block.get c + wordD
  let wordB := rotateLeft (block.get b ^^^ wordC) 12
  let lastA := wordA + wordB
  let lastD := rotateLeft (wordD ^^^ lastA) 8
  let lastC := wordC + lastD
  let lastB := rotateLeft (wordB ^^^ lastC) 7
  (((block.set a lastA).set b lastB).set c lastC).set d lastD

/-- Mixes the four columns and then the four diagonals. -/
def doubleRound (block : Block) : Block :=
  let column0 := quarterRound block 0 4 8 12
  let column1 := quarterRound column0 1 5 9 13
  let column2 := quarterRound column1 2 6 10 14
  let column3 := quarterRound column2 3 7 11 15
  let diagonal0 := quarterRound column3 0 5 10 15
  let diagonal1 := quarterRound diagonal0 1 6 11 12
  let diagonal2 := quarterRound diagonal1 2 7 8 13
  quarterRound diagonal2 3 4 9 14

def mixed : Nat → Block → Block
  | 0, block => block
  | rounds + 1, block => mixed rounds (doubleRound block)

/-- The starting arrangement: four constant words, the key, the number of the
block in two words and two zeros. -/
def start (key : Vector UInt32 8) (number : UInt64) : Block :=
  #v[0x61707865, 0x3320646E, 0x79622D32, 0x6B206574,
    key[0], key[1], key[2], key[3], key[4], key[5], key[6], key[7],
    number.toUInt32, (number >>> 32).toUInt32, 0, 0]

/-- One block of the stream. -/
def block (doubleRounds : Nat) (key : Vector UInt32 8) (number : UInt64) :
    Block :=
  let first := start key number
  Vector.zipWith (· + ·) first (mixed doubleRounds first)

/-- One word of the stream. -/
def word (doubleRounds : Nat) (key : Vector UInt32 8) (position : Nat) :
    UInt32 :=
  (block doubleRounds key (UInt64.ofNat (position / 16))).get
    (Fin.ofNat 16 position)

end Cipher

end ChipEight
