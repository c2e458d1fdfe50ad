/-
The code of an instruction: `decode?` reads a 16-bit word, `encode`
writes one. The two are kept side by side because each is the other's
specification: a word is the code of at most one instruction, and every
instruction has exactly one code. A word that no pattern covers decodes
to nothing; what the machine then does is the machine's business.

The first nibble chooses the family. The second is X, the third Y, the
fourth N, the last two together NN and the last three NNN.
-/
import Chip8.Instr.Basic

namespace Chip8

-- ===================================================== fields of a word

namespace Word

/-- The second nibble, X. -/
def x (w : UInt16) : Reg := ⟨w.toNat / 256 % 16, Nat.mod_lt _ (by decide)⟩

/-- The third nibble, Y. -/
def y (w : UInt16) : Reg := ⟨w.toNat / 16 % 16, Nat.mod_lt _ (by decide)⟩

/-- The fourth nibble, N. -/
def n (w : UInt16) : Fin 16 := ⟨w.toNat % 16, Nat.mod_lt _ (by decide)⟩

/-- The low byte, NN. -/
def nn (w : UInt16) : UInt8 := UInt8.ofNat (w.toNat % 256)

/-- The low three nibbles, NNN. -/
def nnn (w : UInt16) : Target := ⟨w.toNat % 4096, Nat.mod_lt _ (by decide)⟩

/-- Three nibbles side by side, most significant first. Bits above the
fourth of a part are laid over its neighbour's. -/
def join (n1 n2 n3 : UInt8) : UInt16 :=
  (n1.toUInt16 <<< 8) ||| (n2.toUInt16 <<< 4) ||| n3.toUInt16

end Word

-- ============================================================= decoding

/-- The operation that the last nibble of 8XYN stands for. -/
def RegOp.ofCode? : Nat → Option RegOp
  | 0x0 => some .move
  | 0x1 => some .or
  | 0x2 => some .and
  | 0x3 => some .xor
  | 0x4 => some .add
  | 0x5 => some .sub
  | 0x6 => some .shiftRight
  | 0x7 => some .subFrom
  | 0xE => some .shiftLeft
  | _ => none

/-- The instruction that FXNN stands for. -/
def Instr.ofSystemCode? (x : Reg) : Nat → Option Instr
  | 0x07 => some (.getDelay x)
  | 0x0A => some (.awaitKey x)
  | 0x15 => some (.setDelay x)
  | 0x18 => some (.setSound x)
  | 0x1E => some (.addIndex x)
  | 0x29 => some (.glyph x)
  | 0x33 => some (.decimal x)
  | 0x55 => some (.store x)
  | 0x65 => some (.load x)
  | _ => none

/-- The instruction a word stands for, if it stands for one. -/
def Instr.decode? (w : UInt16) : Option Instr :=
  let low := w.toNat % 256
  match w.toNat / 4096 with
  | 0x0 =>
    if w = 0x00E0 then some .clear else if w = 0x00EE then some .ret else none
  | 0x1 => some (.jump (Word.nnn w))
  | 0x2 => some (.call (Word.nnn w))
  | 0x3 => some (.skipIfByte (Word.x w) (Word.nn w))
  | 0x4 => some (.skipUnlessByte (Word.x w) (Word.nn w))
  | 0x5 => if w.toNat % 16 = 0 then some (.skipIfSame (Word.x w) (Word.y w)) else none
  | 0x6 => some (.setByte (Word.x w) (Word.nn w))
  | 0x7 => some (.addByte (Word.x w) (Word.nn w))
  | 0x8 => (RegOp.ofCode? (Word.n w).val).map (.combine · (Word.x w) (Word.y w))
  | 0x9 => if w.toNat % 16 = 0 then some (.skipUnlessSame (Word.x w) (Word.y w)) else none
  | 0xA => some (.setIndex (Word.nnn w))
  | 0xB => some (.jumpPast (Word.nnn w))
  | 0xC => some (.random (Word.x w) (Word.nn w))
  | 0xD => some (.draw (Word.x w) (Word.y w) (Word.n w))
  | 0xE =>
    if low = 0x9E then some (.skipIfKey (Word.x w))
    else if low = 0xA1 then some (.skipUnlessKey (Word.x w)) else none
  | _ => ofSystemCode? (Word.x w) low

-- ============================================================= encoding

/-- The last nibble of 8XYN for an operation. -/
def RegOp.code : RegOp → Nat
  | .move => 0x0
  | .or => 0x1
  | .and => 0x2
  | .xor => 0x3
  | .add => 0x4
  | .sub => 0x5
  | .shiftRight => 0x6
  | .subFrom => 0x7
  | .shiftLeft => 0xE

/-- The code of an instruction as a number below 65536. -/
def Instr.code : Instr → Nat
  | .clear => 0x00E0
  | .ret => 0x00EE
  | .jump t => 0x1000 + t.val
  | .call t => 0x2000 + t.val
  | .skipIfByte x b => 0x3000 + x.val * 256 + b.toNat
  | .skipUnlessByte x b => 0x4000 + x.val * 256 + b.toNat
  | .skipIfSame x y => 0x5000 + x.val * 256 + y.val * 16
  | .setByte x b => 0x6000 + x.val * 256 + b.toNat
  | .addByte x b => 0x7000 + x.val * 256 + b.toNat
  | .combine op x y => 0x8000 + x.val * 256 + y.val * 16 + op.code
  | .skipUnlessSame x y => 0x9000 + x.val * 256 + y.val * 16
  | .setIndex t => 0xA000 + t.val
  | .jumpPast t => 0xB000 + t.val
  | .random x b => 0xC000 + x.val * 256 + b.toNat
  | .draw x y n => 0xD000 + x.val * 256 + y.val * 16 + n.val
  | .skipIfKey x => 0xE09E + x.val * 256
  | .skipUnlessKey x => 0xE0A1 + x.val * 256
  | .getDelay x => 0xF007 + x.val * 256
  | .awaitKey x => 0xF00A + x.val * 256
  | .setDelay x => 0xF015 + x.val * 256
  | .setSound x => 0xF018 + x.val * 256
  | .addIndex x => 0xF01E + x.val * 256
  | .glyph x => 0xF029 + x.val * 256
  | .decimal x => 0xF033 + x.val * 256
  | .store x => 0xF055 + x.val * 256
  | .load x => 0xF065 + x.val * 256

/-- The word that stands for an instruction. -/
def Instr.encode (i : Instr) : UInt16 := UInt16.ofNat i.code

end Chip8
