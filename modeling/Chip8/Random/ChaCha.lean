/-
The ChaCha20 block function: sixteen words from a key of eight, a 64-bit
block counter, and a stream number that is always zero here. The words of
block 0, then those of block 1, and so on, are the key stream.

The words are four rows of four. A quarter round mixes four words, one
from each row; a column round does so to each of the four columns. Before
a diagonal round the rows are turned against each other so that the
diagonals stand in the columns, and after it they are turned back.
-/

namespace Chip8.Random.ChaCha

/-- A key of 256 bits. -/
abbrev Key := Vector UInt32 8

/-- Four words side by side. -/
abbrev Row := Vector UInt32 4

/-- The words that the rounds work on, as four rows. -/
structure Block where
  a : Row
  b : Row
  c : Row
  d : Row

/-- Rotate a word to the left. -/
def rotl (w n : UInt32) : UInt32 := (w <<< n) ||| (w >>> (32 - n))

/-- Mix four words. -/
def quarterRound (a b c d : UInt32) : UInt32 × UInt32 × UInt32 × UInt32 :=
  let a := a + b
  let d := rotl (d ^^^ a) 16
  let c := c + d
  let b := rotl (b ^^^ c) 12
  let a := a + b
  let d := rotl (d ^^^ a) 8
  let c := c + d
  let b := rotl (b ^^^ c) 7
  (a, b, c, d)

/-- Mix each of the columns. -/
def columnRound (s : Block) : Block :=
  let mixed : Vector _ 4 := Vector.ofFn fun i => quarterRound s.a[i] s.b[i] s.c[i] s.d[i]
  ⟨mixed.map (·.1), mixed.map (·.2.1), mixed.map (·.2.2.1), mixed.map (·.2.2.2)⟩

/-- The column that is `n` to the right, coming round at the end. -/
def column (i : Fin 4) (n : Nat) : Fin 4 := ⟨(i.val + n) % 4, Nat.mod_lt (i.val + n) i.pos⟩

/-- Turn a row by `n` places to the left. -/
def turn (r : Row) (n : Nat) : Row := Vector.ofFn fun i => r[column i n]

/-- Turn each row by its own number of places to the left. -/
def turnRows (s : Block) (b c d : Nat) : Block := ⟨s.a, turn s.b b, turn s.c c, turn s.d d⟩

/-- Mix the columns, then the diagonals. -/
def doubleRound (s : Block) : Block :=
  turnRows (columnRound (turnRows (columnRound s) 1 2 3)) 3 2 1

/-- The words before the rounds: four constants, the key, the counter
with its low word first, and the stream number. -/
def initial (key : Key) (counter : UInt64) : Block where
  a := #v[0x61707865, 0x3320646e, 0x79622d32, 0x6b206574]
  b := #v[key[0], key[1], key[2], key[3]]
  c := #v[key[4], key[5], key[6], key[7]]
  d := #v[counter.toUInt32, (counter >>> 32).toUInt32, 0, 0]

/-- The words of a block, row by row. -/
def Block.words (s : Block) : Vector UInt32 16 := s.a ++ s.b ++ s.c ++ s.d

/-- Twenty rounds, and the words from before them added on. -/
def block (key : Key) (counter : UInt64) : Vector UInt32 16 :=
  let start := initial key counter
  Vector.zipWith (· + ·) (Nat.repeat doubleRound 10 start).words start.words

/-- Word `n` of the key stream. -/
def word (key : Key) (n : Nat) : UInt32 :=
  (block key (UInt64.ofNat (n / 16))).get ⟨n % 16, Nat.mod_lt n (by decide)⟩

end Chip8.Random.ChaCha
