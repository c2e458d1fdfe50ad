/-
The codes of instructions, and the patterns that they are documented as.

# Codes

`encode` writes what `decode?` reads: a word decodes to an instruction if
and only if it is its code (`decode?_eq_some_iff`). So no two words decode
to the same instruction, and each instruction has a word.

# Patterns

The instruction set is documented as 34 patterns of four characters, such
as 8XY4, in which X, Y and N stand for digits that are operands. A word fits
the pattern of an instruction if and only if it is the code of that
instruction with the operands that the word has (`fits_iff`). So the words
that fit a pattern are those that decode to an instruction of that pattern
(`fits_iff_decode?`), no word fits two patterns, and a word that fits none
is refused.
-/
import Mathlib
import Chip8.Instr.Decode
import Chip8.Json.Str

namespace Chip8

-- ================================================== fields of a number

namespace Word

-- `base` is what a code is without its operands

variable {w : UInt16} {base : Nat}

theorem toNat_nn (w : UInt16) : (Word.nn w).toNat = w.toNat % 256 := by
  rw [Word.nn, UInt8.toNat_ofNat']
  omega

/-- A word that is a multiple of 4096 and a target has that target. -/
theorem nnn_of_toNat {t : Target} (hbase : base % 4096 = 0) (h : w.toNat = base + t.val) :
    w.toNat / 4096 = base / 4096 ∧ Word.nnn w = t := by
  have ht := t.isLt
  refine ⟨by omega, Fin.ext ?_⟩
  show w.toNat % 4096 = t.val
  omega

theorem x_of_toNat {x : Reg} (hbase : base / 256 % 16 = 0) (h : w.toNat = base + x.val * 256) :
    w.toNat / 4096 = base / 4096 ∧ Word.x w = x ∧ w.toNat % 256 = base % 256 := by
  have hx := x.isLt
  refine ⟨by omega, Fin.ext ?_, by omega⟩
  show w.toNat / 256 % 16 = x.val
  omega

theorem x_nn_of_toNat {x : Reg} {b : UInt8} (hbase : base % 4096 = 0)
    (h : w.toNat = base + x.val * 256 + b.toNat) :
    w.toNat / 4096 = base / 4096 ∧ Word.x w = x ∧ Word.nn w = b := by
  have hb := b.toNat_lt
  have hbyte : w.toNat = base + b.toNat + x.val * 256 := by omega
  obtain ⟨htop, hx, hlow⟩ := x_of_toNat (by omega) hbyte
  refine ⟨by omega, hx, UInt8.toNat_inj.mp ?_⟩
  rw [toNat_nn]
  omega

/-- A word with two registers as its inner nibbles, and a nibble behind
them, has all three. -/
theorem x_y_n_of_toNat {x y : Reg} {d : Nat} (hbase : base % 4096 = 0) (hd : d < 16)
    (h : w.toNat = base + x.val * 256 + y.val * 16 + d) :
    w.toNat / 4096 = base / 4096 ∧ Word.x w = x ∧ Word.y w = y ∧ w.toNat % 16 = d := by
  have hx := x.isLt
  have hy := y.isLt
  refine ⟨by omega, Fin.ext ?_, Fin.ext ?_, by omega⟩
  · show w.toNat / 256 % 16 = x.val
    omega
  · show w.toNat / 16 % 16 = y.val
    omega

end Word

-- ================================================================ codes

/-- The code of an operation is a nibble. -/
theorem RegOp.code_lt (op : RegOp) : op.code < 16 := by
  cases op <;> decide

/-- An operation is found by its code, and by no other. -/
theorem RegOp.ofCode?_eq_some_iff {op : RegOp} {n : Nat} : ofCode? n = some op ↔ op.code = n := by
  constructor
  · intro h
    unfold ofCode? at h
    split at h
    case h_10 => cases h
    all_goals
      cases h
      rfl
  · rintro rfl
    cases op <;> rfl

namespace Instr

variable {w : UInt16} {i : Instr}

/-- The code of an instruction is a word. -/
theorem code_lt (i : Instr) : i.code < 65536 := by
  cases i with
  | clear | ret => decide
  | combine op x y =>
      have hop := op.code_lt
      simp only [code]
      omega
  | skipIfByte x b | skipUnlessByte x b | setByte x b | addByte x b | random x b =>
      have hb := b.toNat_lt
      simp only [code]
      omega
  | _ =>
      simp only [code]
      omega

/-- A word is that of an instruction if it is its code as a number. -/
theorem encode_eq_iff : i.encode = w ↔ w.toNat = i.code := by
  have hcode : i.encode.toNat = i.code := Nat.mod_eq_of_lt i.code_lt
  rw [← UInt16.toNat_inj, hcode]
  exact eq_comm

/-- An FX.. that was found by its low byte has that byte in its code. -/
theorem code_of_ofSystemCode? {x : Reg} {low : Nat} (h : ofSystemCode? x low = some i) :
    i.code = 0xF000 + x.val * 256 + low := by
  unfold ofSystemCode? at h
  split at h
  case h_10 => cases h
  all_goals
    cases h
    simp only [code]
    omega

/-- What a word decodes to has the word as its code. -/
theorem code_of_decode? (h : decode? w = some i) : w.toNat = i.code := by
  have hlt := w.toNat_lt
  have hnn := Word.toNat_nn w
  unfold decode? at h
  dsimp only at h
  split at h
  case h_1 htop =>
    split at h
    case isTrue hword =>
      cases h
      rw [hword]
      rfl
    case isFalse =>
      split at h
      case isTrue hword =>
        cases h
        rw [hword]
        rfl
      case isFalse => cases h
  case h_6 htop | h_10 htop =>
    split at h
    case isTrue hn =>
      cases h
      simp only [code, Word.x, Word.y]
      omega
    case isFalse => cases h
  case h_9 htop =>
    obtain ⟨op, hop, rfl⟩ := Option.map_eq_some_iff.mp h
    have hn : op.code = w.toNat % 16 := RegOp.ofCode?_eq_some_iff.mp hop
    simp only [code, Word.x, Word.y, hn]
    omega
  case h_15 htop =>
    split at h
    case isTrue hlow =>
      cases h
      simp only [code, Word.x]
      omega
    case isFalse =>
      split at h
      case isTrue hlow =>
        cases h
        simp only [code, Word.x]
        omega
      case isFalse => cases h
  case h_16 =>
    rw [code_of_ofSystemCode? h]
    simp only [imp_false, Word.x] at *
    omega
  all_goals
    rename_i htop
    cases h
    simp only [code, Word.x, Word.y, Word.n, Word.nnn, hnn]
    omega

/-- The code of an instruction decodes to it. -/
theorem decode?_of_code (h : w.toNat = i.code) : decode? w = some i := by
  cases i with
  | clear => rw [show w = 0x00E0 from UInt16.toNat_inj.mp h]; rfl
  | ret => rw [show w = 0x00EE from UInt16.toNat_inj.mp h]; rfl
  | jump t | call t | setIndex t | jumpPast t =>
      obtain ⟨htop, hnnn⟩ := Word.nnn_of_toNat rfl h
      simp only [decode?, htop, hnnn, Nat.reduceDiv]
  | skipIfByte x b | skipUnlessByte x b | setByte x b | addByte x b | random x b =>
      obtain ⟨htop, hx, hnn⟩ := Word.x_nn_of_toNat rfl h
      simp only [decode?, htop, hx, hnn, Nat.reduceDiv]
  | combine op x y =>
      obtain ⟨htop, hx, hy, hn⟩ := Word.x_y_n_of_toNat rfl op.code_lt h
      have hop : RegOp.ofCode? (Word.n w).val = some op := RegOp.ofCode?_eq_some_iff.mpr hn.symm
      simp only [decode?, htop, hx, hy, hop, Nat.reduceDiv, Option.map_some]
  | skipIfSame x y | skipUnlessSame x y =>
      obtain ⟨htop, hx, hy, hn⟩ := Word.x_y_n_of_toNat (d := 0) rfl (by decide) h
      simp only [decode?, htop, hx, hy, hn, Nat.reduceDiv, if_true]
  | draw x y rows =>
      obtain ⟨htop, hx, hy, hn⟩ := Word.x_y_n_of_toNat rfl rows.isLt h
      have hrows : Word.n w = rows := Fin.ext hn
      simp only [decode?, htop, hx, hy, hrows, Nat.reduceDiv]
  | _ =>
      obtain ⟨htop, hx, hlow⟩ := Word.x_of_toNat rfl h
      simp only [decode?, htop, hx, hlow, Nat.reduceDiv, Nat.reduceMod]
      rfl

/-- A word decodes to an instruction if and only if it is its code. -/
theorem decode?_eq_some_iff : decode? w = some i ↔ i.encode = w :=
  ⟨fun h => encode_eq_iff.mpr (code_of_decode? h),
    fun h => decode?_of_code (encode_eq_iff.mp h)⟩

end Instr

-- ============================================================= patterns

/-- The instruction set as it is documented. -/
def Word.patterns : List String :=
  ["00E0", "00EE", "1NNN", "2NNN", "3XNN", "4XNN", "5XY0", "6XNN", "7XNN",
   "8XY0", "8XY1", "8XY2", "8XY3", "8XY4", "8XY5", "8XY6", "8XY7", "8XYE",
   "9XY0", "ANNN", "BNNN", "CXNN", "DXYN", "EX9E", "EXA1",
   "FX07", "FX0A", "FX15", "FX18", "FX1E", "FX29", "FX33", "FX55", "FX65"]

/-- The four digits of a word, the most significant first. -/
def Word.digits (w : UInt16) : List Nat :=
  [w.toNat / 4096, w.toNat / 256 % 16, w.toNat / 16 % 16, w.toNat % 16]

/-- A word and its fields are made of its digits. -/
theorem Word.exists_digits (w : UInt16) :
    ∃ a b c d : Nat, digits w = [a, b, c, d] ∧ b < 16 ∧ c < 16 ∧ d < 16
      ∧ w.toNat = 4096 * a + 256 * b + 16 * c + d
      ∧ (Word.x w).val = b ∧ (Word.y w).val = c ∧ (Word.n w).val = d
      ∧ (Word.nn w).toNat = 16 * c + d ∧ (Word.nnn w).val = 256 * b + 16 * c + d := by
  have hnn := Word.toNat_nn w
  refine ⟨_, _, _, _, rfl, Nat.mod_lt _ (by decide), Nat.mod_lt _ (by decide),
    Nat.mod_lt _ (by decide), by omega, rfl, rfl, rfl, by omega, ?_⟩
  show w.toNat % 4096 = _
  omega

/-- Whether a digit may stand where a pattern has a character: a
hexadecimal digit stands for itself, and any other character for all
digits. -/
def Word.Allows (c : Char) (d : Nat) : Prop :=
  match Json.Str.hexValue? c with
  | some e => d = e
  | none => True

/-- Whether a word fits a pattern, digit by digit. -/
def Word.Fits (w : UInt16) (pattern : String) : Prop :=
  List.Forall₂ Allows pattern.toList (digits w)

/-- The pattern of 8XYN for an operation. -/
def RegOp.pattern : RegOp → String
  | .move => "8XY0"
  | .or => "8XY1"
  | .and => "8XY2"
  | .xor => "8XY3"
  | .add => "8XY4"
  | .sub => "8XY5"
  | .shiftRight => "8XY6"
  | .subFrom => "8XY7"
  | .shiftLeft => "8XYE"

namespace Instr

/-- The pattern of an instruction. -/
def pattern : Instr → String
  | .clear => "00E0"
  | .ret => "00EE"
  | .jump _ => "1NNN"
  | .call _ => "2NNN"
  | .skipIfByte .. => "3XNN"
  | .skipUnlessByte .. => "4XNN"
  | .skipIfSame .. => "5XY0"
  | .setByte .. => "6XNN"
  | .addByte .. => "7XNN"
  | .combine op _ _ => op.pattern
  | .skipUnlessSame .. => "9XY0"
  | .setIndex _ => "ANNN"
  | .jumpPast _ => "BNNN"
  | .random .. => "CXNN"
  | .draw .. => "DXYN"
  | .skipIfKey _ => "EX9E"
  | .skipUnlessKey _ => "EXA1"
  | .getDelay _ => "FX07"
  | .awaitKey _ => "FX0A"
  | .setDelay _ => "FX15"
  | .setSound _ => "FX18"
  | .addIndex _ => "FX1E"
  | .glyph _ => "FX29"
  | .decimal _ => "FX33"
  | .store _ => "FX55"
  | .load _ => "FX65"

/-- The instruction with its operands read off a word. -/
def readFrom (w : UInt16) : Instr → Instr
  | .clear => .clear
  | .ret => .ret
  | .jump _ => .jump (Word.nnn w)
  | .call _ => .call (Word.nnn w)
  | .skipIfByte .. => .skipIfByte (Word.x w) (Word.nn w)
  | .skipUnlessByte .. => .skipUnlessByte (Word.x w) (Word.nn w)
  | .skipIfSame .. => .skipIfSame (Word.x w) (Word.y w)
  | .setByte .. => .setByte (Word.x w) (Word.nn w)
  | .addByte .. => .addByte (Word.x w) (Word.nn w)
  | .combine op _ _ => .combine op (Word.x w) (Word.y w)
  | .skipUnlessSame .. => .skipUnlessSame (Word.x w) (Word.y w)
  | .setIndex _ => .setIndex (Word.nnn w)
  | .jumpPast _ => .jumpPast (Word.nnn w)
  | .random .. => .random (Word.x w) (Word.nn w)
  | .draw .. => .draw (Word.x w) (Word.y w) (Word.n w)
  | .skipIfKey _ => .skipIfKey (Word.x w)
  | .skipUnlessKey _ => .skipUnlessKey (Word.x w)
  | .getDelay _ => .getDelay (Word.x w)
  | .awaitKey _ => .awaitKey (Word.x w)
  | .setDelay _ => .setDelay (Word.x w)
  | .setSound _ => .setSound (Word.x w)
  | .addIndex _ => .addIndex (Word.x w)
  | .glyph _ => .glyph (Word.x w)
  | .decimal _ => .decimal (Word.x w)
  | .store _ => .store (Word.x w)
  | .load _ => .load (Word.x w)

variable {w : UInt16} {i : Instr}

/-- Reading the operands anew from a word leaves the pattern alone. -/
theorem pattern_readFrom (w : UInt16) (i : Instr) : (i.readFrom w).pattern = i.pattern := by
  cases i <;> rfl

/-- A word fits the pattern of an instruction if and only if it is the code
of that instruction with the operands that the word has. -/
theorem fits_iff (w : UInt16) (i : Instr) :
    Word.Fits w i.pattern ↔ w.toNat = (i.readFrom w).code := by
  obtain ⟨a, b, c, d, hdigits, hb, hc, hd, hw, hx, hy, hn, hnn, hnnn⟩ := Word.exists_digits w
  unfold Word.Fits
  rw [hdigits, hw]
  -- the fields are rewritten to digits and then forgotten: what is left is linear
  cases i with
  | combine op x y =>
      cases op
      all_goals
        simp [pattern, RegOp.pattern, Word.Allows, Json.Str.hexValue?, readFrom, code, RegOp.code,
          hx, hy]
        clear hx hy hn hnn hnnn hw
        omega
  | _ =>
      simp [pattern, Word.Allows, Json.Str.hexValue?, readFrom, code, hx, hy, hn, hnn, hnnn]
      clear hx hy hn hnn hnnn hw
      omega

/-- What a word decodes to has its operands from the word. -/
theorem readFrom_of_decode? (h : decode? w = some i) : i.readFrom w = i := by
  unfold decode? ofSystemCode? at h
  dsimp only at h
  repeat' split at h
  case h_9 =>
    obtain ⟨op, -, rfl⟩ := Option.map_eq_some_iff.mp h
    rfl
  all_goals cases h <;> rfl

/-- The pattern of an instruction is in the list. -/
theorem pattern_mem (i : Instr) : i.pattern ∈ Word.patterns := by
  cases i with
  | combine op x y => cases op <;> simp [pattern, RegOp.pattern, Word.patterns]
  | _ => simp [pattern, Word.patterns]

end Instr

namespace Word

variable {w : UInt16} {p : String}

/-- The least word that fits a pattern. -/
def least (pattern : String) : UInt16 :=
  UInt16.ofNat (pattern.toList.foldl (fun n c => 16 * n + (Json.Str.hexValue? c).getD 0) 0)

/-- Each pattern is the pattern of an instruction. -/
theorem exists_of_mem_patterns (hp : p ∈ patterns) : ∃ i : Instr, i.pattern = p := by
  have hleast : ∀ q ∈ patterns, (Instr.decode? (least q)).map Instr.pattern = some q := by
    decide
  obtain ⟨i, -, hi⟩ := Option.map_eq_some_iff.mp (hleast p hp)
  exact ⟨i, hi⟩

/-- The words that fit a pattern are those that decode to an instruction of
that pattern. -/
theorem fits_iff_decode? (hp : p ∈ patterns) :
    Fits w p ↔ ∃ i, Instr.decode? w = some i ∧ i.pattern = p := by
  constructor
  · intro hfits
    obtain ⟨i, rfl⟩ := exists_of_mem_patterns hp
    exact ⟨i.readFrom w, Instr.decode?_of_code ((Instr.fits_iff w i).mp hfits),
      Instr.pattern_readFrom w i⟩
  · rintro ⟨i, hdec, rfl⟩
    rw [Instr.fits_iff, Instr.readFrom_of_decode? hdec]
    exact Instr.code_of_decode? hdec

/-- A word decodes to nothing if it fits none of the patterns. -/
theorem decode?_eq_none_iff : Instr.decode? w = none ↔ ∀ p ∈ patterns, ¬ Fits w p := by
  constructor
  · intro hdec p hp hfits
    obtain ⟨i, hi, -⟩ := (fits_iff_decode? hp).mp hfits
    rw [hdec] at hi
    cases hi
  · intro hnone
    refine Option.eq_none_iff_forall_ne_some.mpr fun i hi => ?_
    exact hnone i.pattern i.pattern_mem ((fits_iff_decode? i.pattern_mem).mpr ⟨i, hi, rfl⟩)

end Word

end Chip8
