/-
The display: 64 columns by 32 rows of pixels that are lit or not.

A pixel is a single number, `64 * row + column`, so that the display is
one vector and every view of it (the text, the pixel values, the lookup
by coordinates) reads the same cells. Coordinates wrap on both axes.

A sprite is a list of rows of eight bits, and drawing one flips the
pixels under its set bits. `Sprite.pixels` lists those pixels in drawing
order, and `draw` is a fold of single flips over the list; a sprite with
more than 32 rows comes back to rows it has drawn already, and then the
list names a pixel twice. Whether a flip switched a lit pixel off is the
collision, and a draw collides if one of its flips did.
-/

namespace Chip8

/-- The number of a pixel: `64 * row + column`. -/
abbrev Pixel := Fin 2048

namespace Pixel

/-- The pixel at a column and a row, either of which wraps. -/
def ofCoords (x y : Nat) : Pixel := ⟨x % 64 + y % 32 * 64, by omega⟩

def column (p : Pixel) : Nat := p.val % 64

def row (p : Pixel) : Nat := p.val / 64

end Pixel

namespace Sprite

/-- The columns of the set bits of one row, leftmost first: column `c`
is bit `7 - c`. -/
def columns (byte : UInt8) : List Nat :=
  (List.range 8).filter fun c => byte.toNat.testBit (7 - c)

/-- The pixels that a sprite with its top left corner at `(x, y)` flips,
row by row and from left to right. -/
def pixels (x y : Nat) : List UInt8 → List Pixel
  | [] => []
  | byte :: rest => (columns byte).map (fun c => Pixel.ofCoords (x + c) y) ++ pixels x (y + 1) rest

end Sprite

/-- The display, as which of its pixels are lit. -/
structure Display where
  lit : Vector Bool 2048
  deriving DecidableEq

namespace Display

/-- The display with every pixel off. -/
def blank : Display := ⟨Vector.replicate 2048 false⟩

-- ============================================================== drawing

/-- Flip a pixel; the flag tells whether that switched a lit pixel off. -/
def flip (d : Display) (p : Pixel) : Display × Bool :=
  (⟨d.lit.set p.val (!d.lit[p]) p.isLt⟩, d.lit[p])

/-- Flip pixels one after the other; the flag tells whether any of the
flips switched a lit pixel off. -/
def flipAll (d : Display) : List Pixel → Display × Bool
  | [] => (d, false)
  | p :: ps =>
    let (d', hit) := d.flip p
    let (d'', hits) := d'.flipAll ps
    (d'', hit || hits)

/-- Draw a sprite with its top left corner at `(x, y)`; the flag is the
collision. -/
def draw (d : Display) (x y : UInt8) (rows : List UInt8) : Display × Bool :=
  d.flipAll (Sprite.pixels x.toNat y.toNat rows)

/-- Combine the pixel at `(x, y)` with `on` by exclusive or; the flag
tells whether a lit pixel went out. -/
def combine (d : Display) (x y : UInt8) (on : Bool) : Display × Bool :=
  if on then d.flip (Pixel.ofCoords x.toNat y.toNat) else (d, false)

-- ================================================================ views

/-- Whether the pixel at `(x, y)` is lit; both coordinates wrap. -/
def isLit (d : Display) (x y : UInt8) : Bool := d.lit[Pixel.ofCoords x.toNat y.toNat]

/-- The pixel with a number, if there is one. -/
def get? (d : Display) (i : Nat) : Option Bool := d.lit[i]?

def size (_ : Display) : Nat := 2048

def isBlank (d : Display) : Bool := d.lit.all (!·)

/-- The value of a lit pixel: white in 0RGB. -/
def white : UInt32 := 0xFFFFFF

/-- The value of a pixel that is off: black in 0RGB. -/
def black : UInt32 := 0x000000

/-- The values of all pixels, row by row. -/
def pixels (d : Display) : Vector UInt32 2048 := d.lit.map fun on => if on then white else black

/-- The pixels of one row, from left to right. -/
def row (d : Display) (y : Fin 32) : List Bool :=
  (List.finRange 64).map fun x => d.lit[Pixel.ofCoords x.val y.val]

/-- The character that shows a pixel in text. -/
def mark (on : Bool) : Char := if on then '#' else '.'

/-- The display as characters: each row in turn, ended by a newline. -/
def chars (d : Display) : List Char :=
  (List.finRange 32).flatMap fun y => (d.row y).map mark ++ ['\n']

/-- The display as text: 32 lines of 64 characters. -/
def text (d : Display) : String := String.ofList d.chars

end Display

end Chip8
