/-
The state of the machine, and the ways in which single parts of it are
read and changed. Each field is a component of its own that knows
nothing of the others; what an instruction does to them together is in
`Machine/Exec.lean`, what a host may do in `Machine/Host.lean`.

The stack holds return addresses only, the newest first, and at most
`stackDepth` of them; nothing is kept of addresses that were popped.
-/
import Chip8.Clock
import Chip8.Config.Basic
import Chip8.Display
import Chip8.Event
import Chip8.Instr.Decode
import Chip8.Memory
import Chip8.Random.Generator
import Chip8.Timers

namespace Chip8

/-- How many calls may be open at a time. -/
def stackDepth : Nat := 16

structure Machine where
  config : Config
  memory : Memory
  registers : Vector UInt8 16
  /-- The address register I. -/
  index : UInt16
  /-- The address of the instruction to be run next. -/
  pc : UInt16
  /-- The addresses to return to, the newest first. -/
  stack : List UInt16
  timers : Timers
  clock : Clock
  display : Display
  keypad : Keypad Reg
  /-- Whether instructions are run no more until a program is loaded. -/
  stopped : Bool
  random : Random.Generator
  deriving DecidableEq

namespace Machine

def get (m : Machine) (x : Reg) : UInt8 := m.registers[x]

def set (m : Machine) (x : Reg) (value : UInt8) : Machine :=
  { m with registers := m.registers.set x.val value x.isLt }

/-- Give the flag register one if a condition holds, and zero if not. -/
def setFlag (m : Machine) (condition : Bool) : Machine := m.set Reg.flag condition.toUInt8

/-- Go on to the next instruction. -/
def next (m : Machine) : Machine := { m with pc := m.pc + 2 }

/-- Go on to the next instruction, or to the one behind it if a
condition holds. -/
def skipIf (m : Machine) (condition : Bool) : Machine :=
  { m with pc := m.pc + if condition then 4 else 2 }

/-- The instruction word at the program counter. -/
def fetch (m : Machine) : UInt16 := m.memory.readWord m.pc

/-- The registers V0 to VX. -/
def upTo (m : Machine) (x : Reg) : List UInt8 := m.registers.toList.take (x.val + 1)

end Machine

end Chip8
