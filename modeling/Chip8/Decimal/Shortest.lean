/-
The shortest decimal that reads back as a given double.

A double `m * 2 ^ q` is what every real number between the midpoints to
its two neighbours is read as, the midpoints themselves included exactly
when `m` is even. The decimal wanted is the multiple of the largest
power of ten that lies in that interval; of two such multiples it is the
nearer one, and of two equally near ones the even one. If any multiple
of a power of ten lies in the interval, then so does one of the two that
enclose the double, so that only these two are tried, in exact integer
arithmetic.
-/

namespace Chip8

/-- A positive double, `m * 2 ^ q`. -/
structure Binary where
  m : Nat
  q : Int
  /-- Whether the neighbour below is only half as far away as the one
  above, which is so at the powers of two. -/
  closeBelow : Bool

/-- The decimal `digits * 10 ^ exponent`. -/
structure Decimal where
  digits : Nat
  exponent : Int

namespace Binary

/-- The size of a finite double, from its bits. -/
def ofBits (bits : UInt64) : Binary :=
  let e := (bits >>> 52 &&& 0x7FF).toNat
  let f := (bits &&& 0xFFFFFFFFFFFFF).toNat
  if e = 0 then ⟨f, -1074, false⟩
  else ⟨0x10000000000000 + f, (e : Int) - 1075, decide (f = 0) && decide (1 < e)⟩

/-- A multiple of `10 ^ k` that reads back as the double, if there is
one. In units in which both are integers, `10 ^ k` is `unit`, and the
double is `4 * m * size`, its neighbours' midpoints two such sizes off,
or one if the neighbour is close. -/
def multiple? (b : Binary) (k : Int) : Option Decimal :=
  let size := Nat.pow 2 (b.q - 2).toNat * Nat.pow 10 (-k).toNat
  let unit := Nat.pow 2 (2 - b.q).toNat * Nat.pow 10 k.toNat
  let middle := 4 * b.m * size
  let lowest := middle - (if b.closeBelow then 1 else 2) * size
  let highest := middle + 2 * size
  let reads (d : Nat) : Bool :=
    if b.m % 2 = 0 then lowest ≤ d * unit && d * unit ≤ highest
    else lowest < d * unit && d * unit < highest
  let below := middle / unit
  let toBelow := middle - below * unit
  let toAbove := (below + 1) * unit - middle
  let belowIsNearer := toBelow < toAbove || (toBelow = toAbove && below % 2 = 0)
  if reads below && (belowIsNearer || !reads (below + 1)) then some ⟨below, k⟩
  else if reads (below + 1) then some ⟨below + 1, k⟩
  else none

/-- The shortest decimal that reads back as the double. The powers of
ten are tried from that of the largest doubles down to that of the
smallest. -/
def shortest (b : Binary) : Decimal :=
  ((List.range 633).findSome? fun (i : Nat) => b.multiple? (308 - (i : Int))).getD ⟨0, 0⟩

end Binary

end Chip8
