/-
The built-in font: a glyph of five rows for each hexadecimal digit,
every row a byte of which the upper four bits are drawn. The glyphs lie
one after the other from address 0, so digit `d` starts at `5 * d`.
-/

namespace Chip8.Font

/-- How many bytes the font takes up, from address 0. -/
def size : Nat := 80

def glyphRows : Nat := 5

/-- The sixteen glyphs, `0` to `F`. -/
def bytes : Vector UInt8 size := #v[
  0xF0, 0x90, 0x90, 0x90, 0xF0,
  0x20, 0x60, 0x20, 0x20, 0x70,
  0xF0, 0x10, 0xF0, 0x80, 0xF0,
  0xF0, 0x10, 0xF0, 0x10, 0xF0,
  0x90, 0x90, 0xF0, 0x10, 0x10,
  0xF0, 0x80, 0xF0, 0x10, 0xF0,
  0xF0, 0x80, 0xF0, 0x90, 0xF0,
  0xF0, 0x10, 0x20, 0x40, 0x40,
  0xF0, 0x90, 0xF0, 0x90, 0xF0,
  0xF0, 0x90, 0xF0, 0x10, 0xF0,
  0xF0, 0x90, 0xF0, 0x90, 0x90,
  0xE0, 0x90, 0xE0, 0x90, 0xE0,
  0xF0, 0x80, 0x80, 0x80, 0xF0,
  0xE0, 0x90, 0x90, 0x90, 0xE0,
  0xF0, 0x80, 0xF0, 0x80, 0xF0,
  0xF0, 0x80, 0xF0, 0x80, 0x80]

/-- Where the glyph of the low digit of `value` starts. -/
def address (value : UInt8) : UInt16 :=
  UInt16.ofNat (value.toNat % 16 * glyphRows)

end Chip8.Font
