/-
The source of random bytes. It is a fixed endless sequence of bytes,
`byteAt key 0`, `byteAt key 1`, …, and a count of how many have been
drawn; a draw gives the next one. So what a generator will give depends
on its key and on that count, and on nothing else.

A key can be spread out of a 64-bit seed, which makes a run repeatable.
-/
import Chip8.Random.ChaCha

namespace Chip8.Random

/-- Byte `n` of the sequence that a key stands for: the low byte of a
word of the key stream. -/
def byteAt (key : ChaCha.Key) (n : Nat) : UInt8 := (ChaCha.word key n).toUInt8

/-- The `n`-th state of the linear congruential sequence that starts at
a seed. -/
def spread (seed : UInt64) : Nat → UInt64
  | 0 => seed
  | n + 1 => spread seed n * 6364136223846793005 + 11634580027462260723

/-- The 32 bits taken from a state of the sequence: its high bits folded,
and rotated by the five highest. -/
def permute (s : UInt64) : UInt32 :=
  let x := (((s >>> 18) ^^^ s) >>> 27).toUInt32
  let r := (s >>> 59).toUInt32
  (x >>> r) ||| (x <<< (32 - r))

/-- The key that a seed stands for. -/
def keyOfSeed (seed : UInt64) : ChaCha.Key :=
  Vector.ofFn fun i => permute (spread seed (i.val + 1))

/-- A source of random bytes. -/
structure Generator where
  key : ChaCha.Key
  /-- How many bytes have been drawn. -/
  drawn : Nat
  deriving DecidableEq

namespace Generator

/-- A source from which nothing has been drawn. -/
def ofKey (key : ChaCha.Key) : Generator := ⟨key, 0⟩

/-- Draw the next byte. -/
def next (g : Generator) : UInt8 × Generator :=
  (byteAt g.key g.drawn, { g with drawn := g.drawn + 1 })

end Generator

end Chip8.Random
