/-
A copy of what can be seen of a machine, for showing or looking into.
-/
import Chip8.Machine.Basic

namespace Chip8

/-- What can be seen of a machine. -/
structure Snapshot where
  registers : Vector UInt8 16
  index : UInt16
  pc : UInt16
  /-- The addresses to return to, the oldest first. -/
  stack : List UInt16
  timers : Timers
  memory : Memory
  display : Display
  keys : Keys
  isWaiting : Bool
  stopped : Bool
  deriving DecidableEq

def Machine.snapshot (m : Machine) : Snapshot where
  registers := m.registers
  index := m.index
  pc := m.pc
  stack := m.stack.reverse
  timers := m.timers
  memory := m.memory
  display := m.display
  keys := m.keypad.down
  isWaiting := m.keypad.isWaiting
  stopped := m.stopped

namespace Snapshot

/-- Whether the pixel at `(x, y)` is lit. Outside the display nothing
is. -/
def pixel (s : Snapshot) (x y : Nat) : Bool :=
  if x < 64 ∧ y < 32 then s.display.lit[Pixel.ofCoords x y] else false

def text (s : Snapshot) : String := s.display.text

end Snapshot

end Chip8
