/-
Numbers. `scan` takes a number off the front of a text as it is spelt:
sign, whole part, fraction, exponent. `value` says which number that is.

An integer of at most 64 bits is exact. Every other number becomes a
double, from a significand of at most 64 bits and a power of ten: digits
go into the significand as long as they fit. Of the whole part, a digit
that is left over multiplies by ten; of the fraction, it is dropped. The
significand and the power of ten are combined by one multiplication or
division, so the result may differ from the nearest double in its last
place, which is how such numbers are meant to be read here.
-/
import Chip8.Json.Space

namespace Chip8.Json

/-- A number as it is spelt. -/
structure Number where
  negative : Bool
  whole : List Char
  /-- The digits after the point, if there is a point. -/
  fraction : Option (List Char)
  /-- Whether the exponent is negative, and its digits, if there is an
  exponent. -/
  exponent : Option (Bool × List Char)
  deriving DecidableEq

/-- Which number a spelling stands for. -/
inductive Numeric where
  /-- An integer that is not negative, below 2^64. -/
  | natural (n : Nat)
  /-- The negative of a positive integer, down to -2^63. -/
  | negative (n : Nat)
  /-- Any other number. -/
  | real (x : Float)

namespace Number

-- ============================================================= spelling

/-- Take digits, of which there must be one. `atEnd` is what is wrong if
the text ends instead. -/
def digits (atEnd : Flaw) : Reader (List Char)
  | [] => .error atEnd
  | c :: r =>
    if c.isDigit then .ok (c :: r.takeWhile Char.isDigit, r.dropWhile Char.isDigit)
    else .error .badNumber

/-- Whether the text goes on with a digit. -/
def startsWithDigit : List Char → Bool
  | [] => false
  | c :: _ => c.isDigit

/-- Take the whole part: a zero that no digit follows, or digits that
start with none. -/
def scanWhole (atEnd : Flaw) (s : List Char) : Except Flaw (List Char × List Char) :=
  match s with
  | '0' :: r => if startsWithDigit r then .error .badNumber else .ok (['0'], r)
  | _ => digits atEnd s

/-- Take a point and the digits after it, if there is a point. -/
def scanFraction (atEnd : Flaw) : Reader (Option (List Char))
  | '.' :: r => (digits atEnd r).map fun (ds, r) => (some ds, r)
  | s => .ok (none, s)

/-- Take the sign of an exponent, if there is one; the flag tells
whether it is a minus. -/
def scanSign : List Char → Bool × List Char
  | '+' :: r => (false, r)
  | '-' :: r => (true, r)
  | s => (false, s)

/-- Take an exponent, if there is one. -/
def scanExponent (atEnd : Flaw) : Reader (Option (Bool × List Char))
  | [] => .ok (none, [])
  | c :: r =>
    if c = 'e' ∨ c = 'E' then
      let (minus, r) := scanSign r
      (digits atEnd r).map fun (ds, r) => (some (minus, ds), r)
    else .ok (none, c :: r)

/-- Take a minus sign, if there is one. -/
def scanMinus : List Char → Bool × List Char
  | '-' :: r => (true, r)
  | s => (false, s)

/-- Take a number. `atEnd` is what is wrong if the text ends where a
digit must stand. -/
def scan (atEnd : Flaw) : Reader Number := fun s => do
  let (negative, s) := scanMinus s
  let (whole, s) ← scanWhole atEnd s
  let (fraction, s) ← scanFraction atEnd s
  let (exponent, s) ← scanExponent atEnd s
  return (⟨negative, whole, fraction, exponent⟩, s)

-- ================================================================ value

/-- The number that decimal digits spell. -/
def natOfDigits (ds : List Char) : Nat := Nat.ofDigitChars 10 ds 0

/-- Append digits to a 64-bit significand as long as it stays one. The
second component is how many digits were left over. -/
def accumulate (significand : Nat) : List Char → Nat × Nat
  | [] => (significand, 0)
  | d :: ds =>
    let next := significand * 10 + (d.toNat - '0'.toNat)
    if next < UInt64.size then accumulate next ds else (significand, ds.length + 1)

/-- The largest exponent that may be written out. -/
def maxExponent : Nat := 2147483647

/-- The power of ten as a double. -/
def powerOfTen (n : Nat) : Float := Float.ofScientific 1 false n

/-- Divide by a power of ten, in steps that a double can hold. -/
def divideByPower (x : Float) (n : Nat) : Float :=
  if n ≤ 308 then x / powerOfTen n
  else if x == 0 then x
  else divideByPower (x / powerOfTen 308) (n - 308)
termination_by n

/-- The double `significand * 10 ^ exponent`, if there is one. -/
def scale (significand : Nat) (exponent : Int) : Except Flaw Float :=
  let x := (UInt64.ofNat significand).toFloat
  if exponent < 0 then .ok (divideByPower x exponent.natAbs)
  else if exponent ≤ 308 then
    let y := x * powerOfTen exponent.natAbs
    if y.isInf then .error .hugeNumber else .ok y
  else if x == 0 then .ok x
  else .error .hugeNumber

/-- The size of a number, without its sign, as a double. -/
def magnitude (n : Number) : Except Flaw Float :=
  let fraction := n.fraction.getD []
  let (significand, excess) := accumulate 0 n.whole
  let (significand, dropped) := accumulate significand fraction
  let shift : Int := excess - (fraction.length - dropped : Nat)
  match n.exponent with
  | none => scale significand shift
  | some (minus, ds) =>
    let e := natOfDigits ds
    if e ≤ maxExponent then scale significand (if minus then shift - e else shift + e)
    else if significand = 0 ∨ minus then .ok 0
    else .error .hugeNumber

/-- Whether a number is spelt as an integer. -/
def isInteger (n : Number) : Bool := n.fraction.isNone && n.exponent.isNone

/-- The number that a spelling stands for. A minus in front of a zero
makes it a double, since no integer is a negative zero. -/
def value (n : Number) : Except Flaw Numeric :=
  let whole := natOfDigits n.whole
  if n.isInteger ∧ ¬n.negative ∧ whole < UInt64.size then .ok (.natural whole)
  else if n.isInteger ∧ n.negative ∧ 0 < whole ∧ 2 * whole ≤ UInt64.size then
    .ok (.negative whole)
  else n.magnitude.map fun x => .real (if n.negative then -x else x)

-- =============================================================== length

/-- A run of digits has a first one. -/
theorem digits_length {atEnd : Flaw} {s r ds : List Char}
    (h : digits atEnd s = .ok (ds, r)) : r.length < s.length := by
  cases s with
  | nil => simp [digits] at h
  | cons c t =>
    simp only [digits] at h
    split at h
    · cases h
      have := (List.dropWhile_suffix (l := t) Char.isDigit).length_le
      simp only [List.length_cons]
      omega
    · cases h

theorem scanMinus_length (s : List Char) : (scanMinus s).2.length ≤ s.length := by
  unfold scanMinus
  split <;> simp

theorem scanSign_length (s : List Char) : (scanSign s).2.length ≤ s.length := by
  unfold scanSign
  split <;> simp

/-- The whole part of a number has a digit. -/
theorem scanWhole_length {atEnd : Flaw} {s r ds : List Char}
    (h : scanWhole atEnd s = .ok (ds, r)) : r.length < s.length := by
  unfold scanWhole at h
  split at h
  · split at h
    · cases h
    · cases h
      simp
  · exact digits_length h

theorem scanFraction_length {atEnd : Flaw} {s r : List Char} {ds : Option (List Char)}
    (h : scanFraction atEnd s = .ok (ds, r)) : r.length ≤ s.length := by
  unfold scanFraction at h
  split at h
  · next t =>
    cases hd : digits atEnd t with
    | error e => simp [hd, Except.map] at h
    | ok q =>
      have := digits_length hd
      simp only [hd, Except.map, Except.ok.injEq, Prod.mk.injEq] at h
      simp only [List.length_cons, ← h.2]
      omega
  · cases h
    exact Nat.le_refl _

theorem scanExponent_length {atEnd : Flaw} {s r : List Char} {e : Option (Bool × List Char)}
    (h : scanExponent atEnd s = .ok (e, r)) : r.length ≤ s.length := by
  cases s with
  | nil => cases h; simp
  | cons c t =>
    simp only [scanExponent] at h
    split at h
    · have hs := scanSign_length t
      cases hd : digits atEnd (scanSign t).2 with
      | error e => simp [hd, Except.map] at h
      | ok q =>
        have := digits_length hd
        simp only [hd, Except.map, Except.ok.injEq, Prod.mk.injEq] at h
        simp only [List.length_cons, ← h.2]
        omega
    · cases h
      exact Nat.le_refl _

/-- A number takes up at least one character. -/
theorem scan_length {atEnd : Flaw} {s r : List Char} {n : Number}
    (h : scan atEnd s = .ok (n, r)) : r.length < s.length := by
  simp only [scan, bind, Except.bind] at h
  split at h
  · cases h
  · next q hw =>
    split at h
    · cases h
    · next q' hf =>
      split at h
      · cases h
      · next q'' he =>
        cases h
        have h1 := scanWhole_length hw
        have h2 := scanFraction_length hf
        have h3 := scanExponent_length he
        have h0 := scanMinus_length s
        omega

end Number

end Chip8.Json
