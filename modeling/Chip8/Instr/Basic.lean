/-
The instruction set. An instruction is what a 16-bit word means once
its nibbles are told apart: register numbers are below 16, targets of
jumps are 12 bits wide, and a sprite has at most 15 rows, so the
operand types say all that there is to say about ranges and nothing
downstream has to check them again.

The nine instructions that combine two registers are one constructor
with an operation beside it: they share their shape (read VX and VY,
write VX, perhaps write VF), and differ only in the arithmetic, which
`Machine/Exec.lean` gives.
-/

namespace Chip8

/-- The number of one of the registers V0 to VF. -/
abbrev Reg := Fin 16

/-- The register V0. -/
def Reg.zero : Reg := ⟨0, by decide⟩

/-- The flag register VF. -/
def Reg.flag : Reg := ⟨15, by decide⟩

/-- An address that fits the twelve low bits of an instruction word. -/
abbrev Target := Fin 4096

/-- A 12-bit address as the 16-bit word that the machine keeps. -/
def Target.word (t : Target) : UInt16 := UInt16.ofNat t.val

/-- What an instruction of the family 8XYN does with VX and VY. -/
inductive RegOp where
  /-- 8XY0: VX becomes VY. -/
  | move
  /-- 8XY1: bitwise or. -/
  | or
  /-- 8XY2: bitwise and. -/
  | and
  /-- 8XY3: bitwise exclusive or. -/
  | xor
  /-- 8XY4: VX + VY, VF the carry. -/
  | add
  /-- 8XY5: VX - VY, VF set when nothing is borrowed. -/
  | sub
  /-- 8XY6: one bit to the right, VF the bit shifted out. -/
  | shiftRight
  /-- 8XY7: VY - VX, VF set when nothing is borrowed. -/
  | subFrom
  /-- 8XYE: one bit to the left, VF the bit shifted out. -/
  | shiftLeft
  deriving DecidableEq

/-- An instruction of the machine, named for what it does. -/
inductive Instr where
  /-- 00E0: switch every pixel off. -/
  | clear
  /-- 00EE: return to the address pushed last. -/
  | ret
  /-- 1NNN: go to NNN. -/
  | jump (target : Target)
  /-- 2NNN: push the address of the next instruction, go to NNN. -/
  | call (target : Target)
  /-- 3XNN: skip the next instruction if VX is NN. -/
  | skipIfByte (x : Reg) (byte : UInt8)
  /-- 4XNN: skip the next instruction if VX is not NN. -/
  | skipUnlessByte (x : Reg) (byte : UInt8)
  /-- 5XY0: skip the next instruction if VX is VY. -/
  | skipIfSame (x y : Reg)
  /-- 6XNN: set VX to NN. -/
  | setByte (x : Reg) (byte : UInt8)
  /-- 7XNN: add NN to VX, without a carry. -/
  | addByte (x : Reg) (byte : UInt8)
  /-- 8XYN: combine VX and VY. -/
  | combine (op : RegOp) (x y : Reg)
  /-- 9XY0: skip the next instruction if VX is not VY. -/
  | skipUnlessSame (x y : Reg)
  /-- ANNN: set I to NNN. -/
  | setIndex (target : Target)
  /-- BNNN: go to NNN + V0. -/
  | jumpPast (target : Target)
  /-- CXNN: set VX to a random byte masked by NN. -/
  | random (x : Reg) (mask : UInt8)
  /-- DXYN: draw the N rows stored at I with the top left corner at
  (VX, VY); VF is set when a lit pixel goes out. -/
  | draw (x y : Reg) (rows : Fin 16)
  /-- EX9E: skip the next instruction if the key in VX is down. -/
  | skipIfKey (x : Reg)
  /-- EXA1: skip the next instruction if the key in VX is up. -/
  | skipUnlessKey (x : Reg)
  /-- FX07: set VX to the delay timer. -/
  | getDelay (x : Reg)
  /-- FX0A: wait for a key to go down, and put its number into VX. -/
  | awaitKey (x : Reg)
  /-- FX15: set the delay timer to VX. -/
  | setDelay (x : Reg)
  /-- FX18: set the sound timer to VX. -/
  | setSound (x : Reg)
  /-- FX1E: add VX to I. -/
  | addIndex (x : Reg)
  /-- FX29: set I to the glyph of the low digit of VX. -/
  | glyph (x : Reg)
  /-- FX33: store the three decimal digits of VX at I. -/
  | decimal (x : Reg)
  /-- FX55: store V0 to VX at I. -/
  | store (x : Reg)
  /-- FX65: load V0 to VX from I. -/
  | load (x : Reg)
  deriving DecidableEq

/-- The instructions that touch the display, and so the ones after
which a host has something new to show. -/
def Instr.isDisplay : Instr → Bool
  | .clear | .draw .. => true
  | _ => false

end Chip8
