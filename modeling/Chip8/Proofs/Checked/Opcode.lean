/-
Instructions with operands of which nothing is known but their width.

The operand types of an `Instr` say that a register number is below 16
and a target below 4096, so whoever holds one need not check. An `Opcode`
holds bytes and words, and could name a register that does not exist. The
words of a program are decoded here by shifts and masks alone, and what
comes out is never such an `Opcode`: it is an `Instr` that has forgotten
its bounds (`decode?_eq`). So whatever is proved of instructions holds of
all that a word can decode to.
-/
import Mathlib
import Chip8.Machine.Exec

namespace Chip8

/-- An instruction with operands that are bytes and words. -/
inductive Opcode where
  | clear
  | ret
  | jump (target : UInt16)
  | call (target : UInt16)
  | skipIfByte (x byte : UInt8)
  | skipUnlessByte (x byte : UInt8)
  | skipIfSame (x y : UInt8)
  | setByte (x byte : UInt8)
  | addByte (x byte : UInt8)
  | combine (op : RegOp) (x y : UInt8)
  | skipUnlessSame (x y : UInt8)
  | setIndex (target : UInt16)
  | jumpPast (target : UInt16)
  | random (x mask : UInt8)
  | draw (x y rows : UInt8)
  | skipIfKey (x : UInt8)
  | skipUnlessKey (x : UInt8)
  | getDelay (x : UInt8)
  | awaitKey (x : UInt8)
  | setDelay (x : UInt8)
  | setSound (x : UInt8)
  | addIndex (x : UInt8)
  | glyph (x : UInt8)
  | decimal (x : UInt8)
  | store (x : UInt8)
  | load (x : UInt8)
  deriving DecidableEq

namespace Opcode

-- ============================================================= decoding

/-- Four bits of a word, from bit `k` on. -/
def nibble (w k : UInt16) : UInt8 := ((w >>> k) &&& 0xF).toUInt8

/-- The instruction that FXCD stands for. -/
def ofSystemNibbles? (x : UInt8) : Nat → Nat → Option Opcode
  | 0x0, 0x7 => some (.getDelay x)
  | 0x0, 0xA => some (.awaitKey x)
  | 0x1, 0x5 => some (.setDelay x)
  | 0x1, 0x8 => some (.setSound x)
  | 0x1, 0xE => some (.addIndex x)
  | 0x2, 0x9 => some (.glyph x)
  | 0x3, 0x3 => some (.decimal x)
  | 0x5, 0x5 => some (.store x)
  | 0x6, 0x5 => some (.load x)
  | _, _ => none

/-- The instruction that EXCD stands for. -/
def ofKeyNibbles? (x : UInt8) : Nat → Nat → Option Opcode
  | 0x9, 0xE => some (.skipIfKey x)
  | 0xA, 0x1 => some (.skipUnlessKey x)
  | _, _ => none

/-- The instruction that 0BCD stands for. -/
def ofPlainNibbles? : Nat → Nat → Nat → Option Opcode
  | 0x0, 0xE, 0x0 => some .clear
  | 0x0, 0xE, 0xE => some .ret
  | _, _, _ => none

/-- The instruction that a word stands for, read nibble by nibble. -/
def decode? (w : UInt16) : Option Opcode :=
  let x := nibble w 8
  let y := nibble w 4
  let n := nibble w 0
  let address := w &&& 0x0FFF
  let byte := (w &&& 0x00FF).toUInt8
  match (nibble w 12).toNat with
  | 0x0 => ofPlainNibbles? x.toNat y.toNat n.toNat
  | 0x1 => some (.jump address)
  | 0x2 => some (.call address)
  | 0x3 => some (.skipIfByte x byte)
  | 0x4 => some (.skipUnlessByte x byte)
  | 0x5 => if n.toNat = 0 then some (.skipIfSame x y) else none
  | 0x6 => some (.setByte x byte)
  | 0x7 => some (.addByte x byte)
  | 0x8 => (RegOp.ofCode? n.toNat).map (.combine · x y)
  | 0x9 => if n.toNat = 0 then some (.skipUnlessSame x y) else none
  | 0xA => some (.setIndex address)
  | 0xB => some (.jumpPast address)
  | 0xC => some (.random x byte)
  | 0xD => some (.draw x y n)
  | 0xE => ofKeyNibbles? x y.toNat n.toNat
  | 0xF => ofSystemNibbles? x y.toNat n.toNat
  | _ => none

end Opcode

-- ============================================================ operands

/-- A number below 16 as a byte. -/
def Reg.byte (x : Reg) : UInt8 := UInt8.ofNat x.val

theorem Reg.toNat_byte (x : Reg) : x.byte.toNat = x.val :=
  UInt8.toNat_ofNat_of_lt' (x.isLt.trans (by decide))

theorem Reg.eq_byte {b : UInt8} {x : Reg} (h : b.toNat = x.val) : b = x.byte :=
  UInt8.toNat_inj.mp (h.trans x.toNat_byte.symm)

/-- The instruction with its operands as bytes and words. -/
def Instr.opcode : Instr → Opcode
  | .clear => .clear
  | .ret => .ret
  | .jump t => .jump t.word
  | .call t => .call t.word
  | .skipIfByte x byte => .skipIfByte x.byte byte
  | .skipUnlessByte x byte => .skipUnlessByte x.byte byte
  | .skipIfSame x y => .skipIfSame x.byte y.byte
  | .setByte x byte => .setByte x.byte byte
  | .addByte x byte => .addByte x.byte byte
  | .combine op x y => .combine op x.byte y.byte
  | .skipUnlessSame x y => .skipUnlessSame x.byte y.byte
  | .setIndex t => .setIndex t.word
  | .jumpPast t => .jumpPast t.word
  | .random x mask => .random x.byte mask
  | .draw x y rows => .draw x.byte y.byte (Reg.byte rows)
  | .skipIfKey x => .skipIfKey x.byte
  | .skipUnlessKey x => .skipUnlessKey x.byte
  | .getDelay x => .getDelay x.byte
  | .awaitKey x => .awaitKey x.byte
  | .setDelay x => .setDelay x.byte
  | .setSound x => .setSound x.byte
  | .addIndex x => .addIndex x.byte
  | .glyph x => .glyph x.byte
  | .decimal x => .decimal x.byte
  | .store x => .store x.byte
  | .load x => .load x.byte

namespace Opcode

/-- Four bits of a word are a digit of it. -/
theorem toNat_nibble (w : UInt16) {k : UInt16} (hk : k.toNat < 16) :
    (nibble w k).toNat = w.toNat / 2 ^ k.toNat % 16 := by
  have hdigit : w.toNat / 2 ^ k.toNat % 16 < 256 := (Nat.mod_lt _ (by decide)).trans (by decide)
  rw [nibble, UInt16.toNat_toUInt8, UInt16.toNat_and, UInt16.toNat_shiftRight,
    Nat.mod_eq_of_lt hk, Nat.shiftRight_eq_div_pow, show (0xF : UInt16).toNat = 2 ^ 4 - 1 from rfl,
    Nat.and_two_pow_sub_one_eq_mod]
  exact Nat.mod_eq_of_lt hdigit

/-- The second nibble of a word names register X. -/
theorem nibble_eq_x (w : UInt16) : nibble w 8 = Reg.byte (Word.x w) :=
  Reg.eq_byte (toNat_nibble w (by decide))

theorem nibble_eq_y (w : UInt16) : nibble w 4 = Reg.byte (Word.y w) :=
  Reg.eq_byte (toNat_nibble w (by decide))

theorem nibble_eq_n (w : UInt16) : nibble w 0 = Reg.byte (Word.n w) := by
  refine Reg.eq_byte ((toNat_nibble w (by decide)).trans ?_)
  show w.toNat / 1 % 16 = w.toNat % 16
  rw [Nat.div_one]

/-- The mask of a jump keeps the target. -/
theorem and_eq_nnn (w : UInt16) : w &&& 0x0FFF = (Word.nnn w).word := by
  refine UInt16.toNat_inj.mp ?_
  rw [UInt16.toNat_and, Target.word, UInt16.toNat_ofNat',
    show (0x0FFF : UInt16).toNat = 2 ^ 12 - 1 from rfl, Nat.and_two_pow_sub_one_eq_mod]
  show _ = w.toNat % 4096 % 65536
  omega

/-- The mask of an immediate keeps the low byte. -/
theorem and_eq_nn (w : UInt16) : (w &&& 0x00FF).toUInt8 = Word.nn w := by
  refine UInt8.toNat_inj.mp ?_
  rw [UInt16.toNat_toUInt8, UInt16.toNat_and, Word.nn, UInt8.toNat_ofNat',
    show (0x00FF : UInt16).toNat = 2 ^ 8 - 1 from rfl, Nat.and_two_pow_sub_one_eq_mod]

-- ================================================= words and their parts

/-- The last two nibbles of an FX.. name the op that its low byte names. -/
theorem ofSystemNibbles?_eq (x : Reg) {c d : Nat} (hc : c < 16) (hd : d < 16) :
    ofSystemNibbles? x.byte c d = (Instr.ofSystemCode? x (16 * c + d)).map Instr.opcode := by
  interval_cases c
  all_goals
    interval_cases d
    all_goals rfl

/-- The last two nibbles of an EX.. name the op that its low byte names. -/
theorem ofKeyNibbles?_eq (x : Reg) {c d : Nat} (hc : c < 16) (hd : d < 16) :
    ofKeyNibbles? x.byte c d
      = (if 16 * c + d = 0x9E then some (Instr.skipIfKey x)
          else if 16 * c + d = 0xA1 then some (Instr.skipUnlessKey x) else none).map
        Instr.opcode := by
  interval_cases c
  all_goals
    interval_cases d
    all_goals rfl

/-- The last three nibbles of a 0... name the op that its low twelve bits
name. -/
theorem ofPlainNibbles?_eq {b c d : Nat} (hb : b < 16) (hc : c < 16) (hd : d < 16) :
    ofPlainNibbles? b c d
      = (if 256 * b + 16 * c + d = 0x00E0 then some Instr.clear
          else if 256 * b + 16 * c + d = 0x00EE then some Instr.ret else none).map
        Instr.opcode := by
  by_cases hzero : b = 0
  · subst hzero
    interval_cases c
    all_goals
      interval_cases d
      all_goals rfl
  · rw [if_neg (by omega), if_neg (by omega)]
    unfold ofPlainNibbles?
    split
    · exact absurd rfl hzero
    · exact absurd rfl hzero
    · rfl

/-- What a word decodes to is an instruction that has forgotten its
bounds; a word that is no instruction's is none's here. -/
theorem decode?_eq (w : UInt16) : decode? w = (Instr.decode? w).map Instr.opcode := by
  have hlt := w.toNat_lt
  have hword (v : UInt16) : w = v ↔ w.toNat = v.toNat := UInt16.toNat_inj.symm
  have htop : (nibble w 12).toNat = w.toNat / 4096 := by
    rw [toNat_nibble w (by decide)]
    show w.toNat / 4096 % 16 = _
    omega
  have hlow : w.toNat % 256 = 16 * (Word.y w).val + (Word.n w).val := by
    show _ = 16 * (w.toNat / 16 % 16) + w.toNat % 16
    omega
  unfold decode?
  dsimp only
  rw [htop, nibble_eq_x, nibble_eq_y, nibble_eq_n, and_eq_nnn, and_eq_nn]
  simp only [Reg.toNat_byte]
  split
  case h_1 h =>
    have hplain : w.toNat = 256 * (Word.x w).val + 16 * (Word.y w).val + (Word.n w).val := by
      show _ = 256 * (w.toNat / 256 % 16) + 16 * (w.toNat / 16 % 16) + w.toNat % 16
      omega
    simp only [Instr.decode?, h]
    rw [ofPlainNibbles?_eq (Fin.isLt _) (Fin.isLt _) (Fin.isLt _), ← hplain]
    simp only [hword]
    rfl
  case h_9 h =>
    simp only [Instr.decode?, h]
    cases RegOp.ofCode? (Word.n w).val with
    | none => rfl
    | some op => rfl
  case h_6 h | h_10 h =>
    simp only [Instr.decode?, h]
    show (if w.toNat % 16 = 0 then _ else _) = Option.map _ (if w.toNat % 16 = 0 then _ else _)
    split
    · rfl
    · rfl
  case h_15 h =>
    simp only [Instr.decode?, h]
    rw [ofKeyNibbles?_eq _ (Fin.isLt _) (Fin.isLt _), hlow]
  case h_16 h =>
    simp only [Instr.decode?, h]
    rw [ofSystemNibbles?_eq _ (Fin.isLt _) (Fin.isLt _), hlow]
  case h_17 =>
    -- a nibble is below 16, so one of the cases above applies
    simp only [imp_false] at *
    omega
  all_goals
    rename_i h
    simp only [Instr.decode?, h]
    rfl

/-- FX65 is the code of a load, and the register that it names exists. -/
example : decode? 0xFF65 = some (.load 15) := by decide

end Opcode

end Chip8
