/-
The 4096 bytes of memory. Addresses are 16 bits wide and wrap: only
their low twelve bits choose a cell, on reading and on writing alike.

The font occupies the first 80 cells and is read only for a running
program. A store that reaches into it drops the bytes that would land
there, keeps the others, and reports the cells that it left alone, in
the order in which it came by them; nothing else is ever refused.
-/
import Chip8.Font

namespace Chip8

/-- The number of a memory cell. -/
abbrev Cell := Fin 4096

/-- What an address leaves modulo 4096 is a cell. -/
theorem Cell.toNat_mod_lt (a : UInt16) : a.toNat % 4096 < 4096 := Nat.mod_lt _ (by decide)

/-- The cell that an address falls on. -/
def Cell.ofAddress (a : UInt16) : Cell := ⟨a.toNat % 4096, Cell.toNat_mod_lt a⟩

def Cell.address (c : Cell) : UInt16 := UInt16.ofNat c.val

/-- Whether a cell belongs to the font, and so is read only. -/
def Cell.isFont (c : Cell) : Bool := c.val < Font.size

structure Memory where
  cells : Vector UInt8 4096
  deriving DecidableEq

namespace Memory

/-- Where programs are loaded, and where the machine starts. -/
def programStart : Nat := 0x200

/-- The longest program that fits between `programStart` and the end. -/
def capacity : Nat := 4096 - programStart

/-- Memory that holds the font, `program` from `programStart` on, and
zeros everywhere else. -/
def ofProgram (program : Array UInt8) : Memory where
  cells := Vector.ofFn fun c =>
    if h : c.val < Font.size then Font.bytes[c.val]
    else if programStart ≤ c.val then program.getD (c.val - programStart) 0
    else 0

/-- Memory before any program: the font and zeros. -/
def blank : Memory := ofProgram #[]

def read (m : Memory) (a : UInt16) : UInt8 := m.cells[Cell.ofAddress a]

/-- The `n` bytes from an address on. -/
def readMany (m : Memory) (a : UInt16) (n : Nat) : List UInt8 :=
  (List.range n).map fun i => m.read (a + UInt16.ofNat i)

/-- The word at an address, high byte first. -/
def readWord (m : Memory) (a : UInt16) : UInt16 :=
  UInt16.ofNat ((m.read a).toNat * 256 + (m.read (a + 1)).toNat)

/-- Put one byte into a cell, unless the cell is read only. -/
def put (m : Memory) (c : Cell) (byte : UInt8) : Memory :=
  if c.isFont then m else { cells := m.cells.set c.val byte c.isLt }

/-- Store bytes one after the other from an address on. Beside the new
memory come the read-only cells that were left alone, in order. -/
def store (m : Memory) (a : UInt16) : List UInt8 → Memory × List Cell
  | [] => (m, [])
  | byte :: rest =>
    let c := Cell.ofAddress a
    let (m', refused) := (m.put c byte).store (a + 1) rest
    (m', if c.isFont then c :: refused else refused)

end Memory

end Chip8
