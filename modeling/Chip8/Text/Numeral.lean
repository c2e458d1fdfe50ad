/-
Numerals as the machine writes them. Addresses and instruction words
are hexadecimal, in upper case, behind `0x` and filled with zeros to a
least width that the caller chooses: three digits for an address, four
for a word, none for a key code. A value too large for its width is
written in full, never cut.
-/

namespace Chip8.Text

/-- The hexadecimal digits of `n`, most significant first, filled on
the left with zeros to at least `width` digits. -/
def hexDigits (width n : Nat) : List Char :=
  ((Nat.toDigits 16 n).map Char.toUpper).leftpad width '0'

/-- `n` in hexadecimal with at least `width` digits, marked by `0x`. -/
def hex (width n : Nat) : String :=
  "0x" ++ String.ofList (hexDigits width n)

/-- How an address is written: `0x00A`, `0x200`, `0x1000`. -/
def address (a : UInt16) : String := hex 3 a.toNat

/-- How an instruction word is written: `0x00E0`. -/
def word (w : UInt16) : String := hex 4 w.toNat

end Chip8.Text
