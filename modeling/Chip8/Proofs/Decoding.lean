/-
Words, opcodes and programs.

# Operands

An `Opcode` can hold operands that no word has room for. Those with all
operands in range (`InRange`) are the instructions, so they have one word
each, and the others have none (`ofWord_eq_ok_iff`).

# Programs

The word that a cycle decodes is made of the two cells behind the program
counter, wherever it points. If memory is the image of a list of opcodes,
these are found one after the other (`fetch_image`).
-/
import Chip8.Proofs.Checked.Opcode
import Chip8.Proofs.Encoding
import Chip8.Proofs.Pieces
import Chip8.Proofs.Progress
import Chip8.Proofs.Stores

namespace Chip8

-- ============================================================= operands

/-- The register that a byte names, if it names one. -/
def Reg.ofByte (b : UInt8) : Reg := Word.n b.toUInt16

/-- The target that a word is, if it is one. -/
def Target.ofWord (v : UInt16) : Target := Word.nnn v

/-- The number of a register names it. -/
theorem Reg.ofByte_byte (x : Reg) : Reg.ofByte x.byte = x := by
  refine Fin.ext ?_
  show x.byte.toUInt16.toNat % 16 = x.val
  rw [UInt8.toNat_toUInt16, Reg.toNat_byte]
  exact Nat.mod_eq_of_lt x.isLt

/-- A byte up to fifteen is the number of a register. -/
theorem Reg.byte_ofByte {b : UInt8} (h : b ≤ 0xF) : (Reg.ofByte b).byte = b := by
  have hlt : b.toNat ≤ 15 := UInt8.le_iff_toNat_le.mp h
  refine (Reg.eq_byte ?_).symm
  show b.toNat = b.toUInt16.toNat % 16
  rw [UInt8.toNat_toUInt16]
  omega

theorem Reg.byte_le (x : Reg) : x.byte ≤ 0xF := by
  have hlt := x.isLt
  rw [UInt8.le_iff_toNat_le, Reg.toNat_byte]
  show x.val ≤ 15
  omega

theorem Target.ofWord_word (t : Target) : Target.ofWord t.word = t := by
  refine Fin.ext ?_
  show t.word.toNat % 4096 = t.val
  rw [Machine.toNat_word]
  exact Nat.mod_eq_of_lt t.isLt

theorem Target.word_ofWord {v : UInt16} (h : v ≤ 0xFFF) : (Target.ofWord v).word = v := by
  have hle : v.toNat ≤ 4095 := UInt16.le_iff_toNat_le.mp h
  refine UInt16.toNat_inj.mp ?_
  rw [Machine.toNat_word]
  show v.toNat % 4096 = v.toNat
  omega

theorem Target.word_le (t : Target) : t.word ≤ 0xFFF := by
  have hlt := t.isLt
  rw [UInt16.le_iff_toNat_le, Machine.toNat_word]
  show t.val ≤ 4095
  omega

namespace Opcode

/-- The operands of an opcode that a word has one digit for: numbers of
registers, and the height of a sprite. -/
def digits : Opcode → List UInt8
  | .clear | .ret | .jump _ | .call _ | .setIndex _ | .jumpPast _ => []
  | .skipIfByte x _ | .skipUnlessByte x _ | .setByte x _ | .addByte x _ | .random x _ => [x]
  | .skipIfSame x y | .combine _ x y | .skipUnlessSame x y => [x, y]
  | .draw x y rows => [x, y, rows]
  | .skipIfKey x | .skipUnlessKey x | .getDelay x | .awaitKey x | .setDelay x | .setSound x
  | .addIndex x | .glyph x | .decimal x | .store x | .load x => [x]

/-- The operands of an opcode that a word has three digits for. -/
def addresses : Opcode → List UInt16
  | .jump t | .call t | .setIndex t | .jumpPast t => [t]
  | _ => []

/-- Whether a word has room for the operands of an opcode. -/
def InRange (o : Opcode) : Prop :=
  (∀ b ∈ o.digits, b ≤ 0xF) ∧ ∀ a ∈ o.addresses, a ≤ 0xFFF

-- along the lists, not along all bytes
instance (o : Opcode) : Decidable o.InRange :=
  @instDecidableAnd _ _ (List.decidableBAll _ _) (List.decidableBAll _ _)

/-- The instruction that an opcode is, if its operands are in range. -/
def instr : Opcode → Instr
  | .clear => .clear
  | .ret => .ret
  | .jump t => .jump (Target.ofWord t)
  | .call t => .call (Target.ofWord t)
  | .skipIfByte x byte => .skipIfByte (Reg.ofByte x) byte
  | .skipUnlessByte x byte => .skipUnlessByte (Reg.ofByte x) byte
  | .skipIfSame x y => .skipIfSame (Reg.ofByte x) (Reg.ofByte y)
  | .setByte x byte => .setByte (Reg.ofByte x) byte
  | .addByte x byte => .addByte (Reg.ofByte x) byte
  | .combine op x y => .combine op (Reg.ofByte x) (Reg.ofByte y)
  | .skipUnlessSame x y => .skipUnlessSame (Reg.ofByte x) (Reg.ofByte y)
  | .setIndex t => .setIndex (Target.ofWord t)
  | .jumpPast t => .jumpPast (Target.ofWord t)
  | .random x mask => .random (Reg.ofByte x) mask
  | .draw x y rows => .draw (Reg.ofByte x) (Reg.ofByte y) (Reg.ofByte rows)
  | .skipIfKey x => .skipIfKey (Reg.ofByte x)
  | .skipUnlessKey x => .skipUnlessKey (Reg.ofByte x)
  | .getDelay x => .getDelay (Reg.ofByte x)
  | .awaitKey x => .awaitKey (Reg.ofByte x)
  | .setDelay x => .setDelay (Reg.ofByte x)
  | .setSound x => .setSound (Reg.ofByte x)
  | .addIndex x => .addIndex (Reg.ofByte x)
  | .glyph x => .glyph (Reg.ofByte x)
  | .decimal x => .decimal (Reg.ofByte x)
  | .store x => .store (Reg.ofByte x)
  | .load x => .load (Reg.ofByte x)

/-- The op of an instruction stands for it. -/
theorem instr_opcode (i : Instr) : i.opcode.instr = i := by
  cases i <;> simp only [Instr.opcode, instr, Reg.ofByte_byte, Target.ofWord_word]

/-- The op of an instruction has its operands in range. -/
theorem inRange_opcode (i : Instr) : i.opcode.InRange := by
  cases i <;> simp [InRange, Instr.opcode, digits, addresses, Reg.byte_le, Target.word_le]

/-- An op with its operands in range is that of the instruction it stands
for. -/
theorem opcode_instr {o : Opcode} (h : o.InRange) : o.instr.opcode = o := by
  obtain ⟨hdigits, haddresses⟩ := h
  cases o <;> simp_all [digits, addresses, instr, Instr.opcode, Reg.byte_ofByte, Target.word_ofWord]

-- =============================================================== words

variable {o : Opcode} {w v : UInt16}

/-- The opcode that a word stands for, or the word itself if there is
none. -/
def ofWord (w : UInt16) : Except UInt16 Opcode :=
  match decode? w with
  | some o => .ok o
  | none => .error w

/-- The word of an opcode. -/
def word (o : Opcode) : UInt16 := o.instr.encode

/-- A word has the op of the instruction that it decodes to. -/
theorem ofWord_eq_ok_iff_decode? :
    ofWord w = .ok o ↔ ∃ i, Instr.decode? w = some i ∧ i.opcode = o := by
  rw [← Option.map_eq_some_iff, ← decode?_eq]
  unfold ofWord
  cases hdec : decode? w with
  | none =>
      constructor
      · intro h
        cases h
      · intro h
        cases h
  | some o' => rw [Except.ok.injEq, Option.some.injEq]

/-- A word has no op if and only if it decodes to nothing, and the error
names the word. -/
theorem ofWord_eq_error_iff : ofWord w = .error v ↔ v = w ∧ Instr.decode? w = none := by
  rw [← Option.map_eq_none_iff (f := Instr.opcode), ← decode?_eq]
  unfold ofWord
  cases hdec : decode? w with
  | none => rw [Except.error.injEq, eq_comm, and_iff_left rfl]
  | some o' =>
      constructor
      · intro h
        cases h
      · rintro ⟨-, h⟩
        cases h

/-- The opcodes with operands in range have one word each, and the others
have none. -/
theorem ofWord_eq_ok_iff : ofWord w = .ok o ↔ o.InRange ∧ w = o.word := by
  rw [ofWord_eq_ok_iff_decode?]
  constructor
  · rintro ⟨i, hdec, rfl⟩
    refine ⟨inRange_opcode i, ?_⟩
    rw [word, instr_opcode, Instr.decode?_eq_some_iff.mp hdec]
  · rintro ⟨hrange, rfl⟩
    exact ⟨o.instr, Instr.decode?_eq_some_iff.mpr rfl, opcode_instr hrange⟩

-- ============================================================= programs

/-- The bytes of an opcode in memory, the high byte first. -/
def bytes (o : Opcode) : List UInt8 :=
  [UInt8.ofNat (o.word.toNat / 256), UInt8.ofNat (o.word.toNat % 256)]

/-- An op takes two bytes. -/
theorem length_bytes (o : Opcode) : o.bytes.length = 2 := rfl

/-- A program file of opcodes, one after the other. -/
def image (program : List Opcode) : Array UInt8 := (program.flatMap bytes).toArray

variable {program : List Opcode} {k : Nat}

/-- The image of a program has two bytes for each op. -/
theorem size_image (program : List Opcode) : (image program).size = 2 * program.length := by
  rw [image, List.size_toArray, List.length_flatMap]
  simp only [length_bytes, List.map_const', List.sum_replicate, smul_eq_mul]
  exact Nat.mul_comm _ _

/-- An op of a program is found in the image at twice its place. -/
theorem getD_image {x : Nat} (hx : x < 2) (hk : program[k]? = some o) :
    (image program).getD (2 * k + x) 0 = o.bytes.getD x 0 := by
  rw [image, Array.getD_eq_getD_getElem?, List.getElem?_toArray,
    Pieces.getElem?_flatMap length_bytes hx, hk, Option.bind_some, List.getD_eq_getElem?_getD]

/-- The words of a program are found one after the other. -/
theorem fetch_image {m : Machine} (hfits : 2 * program.length ≤ Memory.capacity)
    (hmem : m.memory = Memory.ofProgram (image program))
    (hpc : m.pc.toNat = Memory.programStart + 2 * k) (hk : program[k]? = some o) :
    m.fetch = o.word := by
  have hlt : k < program.length := (List.getElem?_eq_some_iff.mp hk).1
  have hword := o.word.toNat_lt
  rw [Machine.fetch, hmem, Memory.readWord_ofProgram _ hpc (by omega),
    ← Nat.add_zero (2 * k), getD_image (by decide) hk, Nat.add_zero, getD_image (by decide) hk]
  refine UInt16.toNat_inj.mp ?_
  show ((UInt8.ofNat (o.word.toNat / 256)).toNat * 256
    + (UInt8.ofNat (o.word.toNat % 256)).toNat) % 65536 = _
  rw [UInt8.toNat_ofNat', UInt8.toNat_ofNat']
  omega

end Opcode

-- ========================================================== main result

namespace Machine

variable {m : Machine} {o : Opcode} {v : UInt16}

/-- A cycle refuses a word that stands for no opcode, and names it. -/
theorem cycle_of_ofWord_error (hrun : m.stopped = false)
    (hword : Opcode.ofWord m.fetch = .error v) :
    m.cycle.reply = .error (.unknownInstruction v m.pc) := by
  obtain ⟨rfl, hdec⟩ := Opcode.ofWord_eq_error_iff.mp hword
  rw [cycle_of_unknown hrun hdec]

/-- A cycle runs the opcode that the word at the program counter stands
for. -/
theorem cycle_of_ofWord_ok (hrun : m.stopped = false) (hword : Opcode.ofWord m.fetch = .ok o) :
    m.cycle.reply = ((m.exec o.instr).mapError Faulted.fault).map fun _ => some o.instr := by
  obtain ⟨i, hdec, rfl⟩ := Opcode.ofWord_eq_ok_iff_decode?.mp hword
  rw [Opcode.instr_opcode]
  cases hexec : m.exec i with
  | error f =>
      rw [cycle_of_fault hrun hdec hexec]
      rfl
  | ok out =>
      rw [cycle_of_exec hrun hdec hexec]
      rfl

/-- Exactly the documented words are decoded, and nothing is lost. A word
is refused, and named, if and only if it fits none of the patterns; what it
decodes to otherwise has its operands in range. An opcode with operands in
range is decoded from one word, and any other from none. A cycle decodes the
word that is made of the two cells behind the program counter, counted round
4096. So a list of opcodes that fits, written as words and loaded, is found
and decoded one after the other. -/
theorem decoding_loses_nothing :
    (∀ w : UInt16,
      ((∃ v, Opcode.ofWord w = .error v) ↔ ∀ p ∈ Word.patterns, ¬ Word.Fits w p)
        ∧ (∀ v, Opcode.ofWord w = .error v → v = w)
        ∧ ∀ o, Opcode.ofWord w = .ok o → o.InRange ∧ Word.Fits w o.instr.pattern)
      ∧ (∀ o : Opcode,
        (o.InRange → ∃! w : UInt16, Opcode.ofWord w = .ok o)
          ∧ (¬ o.InRange → ∀ w : UInt16, Opcode.ofWord w ≠ .ok o))
      ∧ (∀ m : Machine,
        m.fetch.toNat = 256 * (m.memory.cells.get (Cell.behind m.pc 0)).toNat
            + (m.memory.cells.get (Cell.behind m.pc 1)).toNat
          ∧ (m.stopped = false →
            (∀ v, Opcode.ofWord m.fetch = .error v →
              m.cycle.reply = .error (.unknownInstruction v m.pc))
            ∧ ∀ o, Opcode.ofWord m.fetch = .ok o →
              o.instr.opcode = o
                ∧ m.cycle.reply
                  = ((m.exec o.instr).mapError Faulted.fault).map fun _ => some o.instr))
      ∧ ∀ (m : Machine) (now : Instant) (program : List Opcode),
        (∀ o ∈ program, o.InRange) → 2 * program.length ≤ Memory.capacity →
        (m.load now (Opcode.image program)).reply = .ok ()
          ∧ (m.load now (Opcode.image program)).machine.pc = 0x200
          ∧ (m.load now (Opcode.image program)).machine.stopped = false
          ∧ ∀ (m' : Machine) (k : Nat) (o : Opcode),
            m'.memory = (m.load now (Opcode.image program)).machine.memory →
            m'.pc.toNat = 0x200 + 2 * k → program[k]? = some o →
            m'.fetch = o.word ∧ Opcode.ofWord m'.fetch = .ok o := by
  refine ⟨fun w => ⟨?_, ?_, ?_⟩, fun o => ⟨?_, ?_⟩, fun m => ⟨?_, ?_⟩, ?_⟩
  · rw [← Word.decode?_eq_none_iff]
    constructor
    · rintro ⟨v, hv⟩
      exact (Opcode.ofWord_eq_error_iff.mp hv).2
    · intro hdec
      exact ⟨w, Opcode.ofWord_eq_error_iff.mpr ⟨rfl, hdec⟩⟩
  · intro v hv
    exact (Opcode.ofWord_eq_error_iff.mp hv).1
  · intro o ho
    obtain ⟨i, hdec, rfl⟩ := Opcode.ofWord_eq_ok_iff_decode?.mp ho
    refine ⟨Opcode.inRange_opcode i, ?_⟩
    rw [Opcode.instr_opcode]
    exact (Word.fits_iff_decode? i.pattern_mem).mpr ⟨i, hdec, rfl⟩
  · intro hrange
    refine ⟨o.word, Opcode.ofWord_eq_ok_iff.mpr ⟨hrange, rfl⟩, fun w hw => ?_⟩
    exact (Opcode.ofWord_eq_ok_iff.mp hw).2
  · intro hrange w hw
    exact hrange (Opcode.ofWord_eq_ok_iff.mp hw).1
  · rw [fetch_toNat, ← Cell.ofAddress_add m.pc 1]
    rfl
  · intro hrun
    refine ⟨fun v => cycle_of_ofWord_error hrun,
      fun o ho => ⟨?_, cycle_of_ofWord_ok hrun ho⟩⟩
    exact Opcode.opcode_instr (Opcode.ofWord_eq_ok_iff.mp ho).1
  · intro m now program hrange hfits
    have hsize : (Opcode.image program).size ≤ Memory.capacity := by
      rwa [Opcode.size_image]
    rw [load_of_fits m now hsize]
    refine ⟨rfl, rfl, rfl, fun m' k o hmem hpc hk => ?_⟩
    have hword : m'.fetch = o.word := Opcode.fetch_image hfits hmem hpc hk
    refine ⟨hword, ?_⟩
    rw [hword]
    exact Opcode.ofWord_eq_ok_iff.mpr ⟨hrange o (List.mem_of_getElem? hk), rfl⟩

/-- Two opcodes to be written and found again. -/
def twoOpcodes : List Opcode := [.setByte 0xF 0x2A, .draw 0x1 0x2 0x5]

/-- A machine that has come to the second of two opcodes. -/
def atSecond : Machine :=
  { ((booted #[]).load 0 (Opcode.image twoOpcodes)).machine with pc := 0x202 }

/-- A machine that has come to the last address. -/
def atLast : Machine := { booted #[] with pc := 0xFFFF }

/-- The second of two opcodes is found behind the first. A cycle at the last
address goes round and takes its second byte from the font, and refuses the
word that this makes. -/
theorem second_found_and_last_refused :
    ((booted #[]).load 0 (Opcode.image twoOpcodes)).reply = .ok ()
      ∧ Opcode.ofWord atSecond.fetch = .ok (.draw 0x1 0x2 0x5)
      ∧ atLast.cycle.reply = .error (.unknownInstruction 0x00F0 0xFFFF) := by
  obtain ⟨-, -, hcycle, hload⟩ := decoding_loses_nothing
  obtain ⟨hreply, -, -, hfound⟩ := hload (booted #[]) 0 twoOpcodes (by decide) (by decide)
  obtain ⟨hfetch, hrun⟩ := hcycle atLast
  have hpc : atSecond.pc.toNat = 0x200 + 2 * 1 := by
    show (0x202 : UInt16).toNat = _
    decide
  have hhigh : atLast.memory.cells.get (Cell.behind atLast.pc 0) = 0x00 :=
    (Memory.cells_ofProgram #[] (Cell.behind 0xFFFF 0)).trans (by decide)
  have hlow : atLast.memory.cells.get (Cell.behind atLast.pc 1) = 0xF0 :=
    Memory.holdsFont_ofProgram #[] (Cell.behind 0xFFFF 1) (by decide)
  have hword : atLast.fetch = 0x00F0 := by
    rw [hhigh, hlow] at hfetch
    exact UInt16.toNat_inj.mp hfetch
  have hlast : Opcode.ofWord atLast.fetch = .error 0x00F0 := by
    rw [hword]
    decide
  exact ⟨hreply, (hfound atSecond 1 _ rfl hpc rfl).2, (hrun rfl).1 _ hlast⟩

end Machine

end Chip8
