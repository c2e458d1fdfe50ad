/-
No instruction breaks off.

`Raw.of` lays a machine out in storage, beside slots for return addresses
and a latch for keys, and `Board.raw` does so with a board. Each
operation on such a layout has one lemma: it gives the layout of what the
machine becomes. `Board.exec_raw` puts them together.

What makes the checks succeed is what the types of a machine say. An
operand of an instruction is the number of a register, and that it has
become a byte in the meantime does not matter (`Reg.toNat_byte`). Slots
in use are no more than there are, which is the invariant of `CallSlots`;
and the register that waits is one that an instruction named, because
nothing else puts it there (`Board.awaitKey_raw`). Addresses are taken
modulo the size of memory before they are used as an index.
-/
import Chip8.Proofs.Checked.Machine

namespace Chip8

namespace Raw

open Checked

/-- A machine in storage, beside slots and a latch. -/
def of (m : Machine) (c : CallSlots) (k : KeyLatch) : Raw where
  config := m.config
  memory := m.memory.cells
  registers := m.registers
  index := m.index
  pc := m.pc
  slots := c.slots
  used := c.used
  timers := m.timers
  clock := m.clock
  lit := m.display.lit
  down := k.down
  seen := k.seen
  asker := k.asker.map Reg.byte
  stopped := m.stopped
  random := m.random

variable {m : Machine} {c : CallSlots} {k : KeyLatch}

-- ======================================================== single parts

/-- A register that an op names is one of the sixteen, so reading it never
fails. -/
@[simp]
theorem get_of (x : Reg) : (of m c k).get x.byte = some (m.get x) := by
  unfold get
  rw [Reg.toNat_byte]
  exact Vector.getElem?_eq_getElem x.isLt

@[simp]
theorem set_of (x : Reg) (value : UInt8) :
    (of m c k).set x.byte value = some (of (m.set x value) c k) := by
  unfold set
  rw [Reg.toNat_byte, write_eq _ _ x.isLt]
  rfl

@[simp]
theorem set_of_flag (value : UInt8) :
    (of m c k).set 0xF value = some (of (m.set Reg.flag value) c k) := set_of Reg.flag value

theorem next_of : (of m c k).next = of m.next c k := rfl

/-- Two bytes side by side. -/
theorem shift_or_eq (high low : UInt8) :
    (high.toUInt16 <<< 8) ||| low.toUInt16 = UInt16.ofNat (high.toNat * 256 + low.toNat) := by
  have hhigh := high.toNat_lt
  have hlow := low.toNat_lt
  refine UInt16.toNat_inj.mp ?_
  rw [UInt16.toNat_or, UInt16.toNat_shiftLeft, UInt16.toNat_ofNat']
  show (high.toNat <<< 8 % 65536) ||| low.toNat = _
  rw [Nat.mod_eq_of_lt (by rw [Nat.shiftLeft_eq]; omega), ← Nat.shiftLeft_add_eq_or_of_lt hlow,
    Nat.shiftLeft_eq]
  omega

/-- The two bytes of an instruction are read at addresses that wrap, so a
fetch never fails. -/
theorem fetch_of : (of m c k).fetch = some m.fetch := by
  unfold fetch
  show (do
    let high ← readByte m.memory.cells m.pc
    let low ← readByte m.memory.cells (m.pc + 1)
    return (high.toUInt16 <<< 8) ||| low.toUInt16) = _
  rw [readByte_eq, readByte_eq]
  exact congrArg some (shift_or_eq _ _)

/-- What a shift works on is a register that exists. -/
theorem shiftOperand_of (x y : Reg) :
    (of m c k).shiftOperand x.byte y.byte = some (m.shiftOperand x y) := by
  unfold shiftOperand Machine.shiftOperand
  rw [get_of, get_of, show (of m c k).config = m.config from rfl]
  cases m.config.shiftSource with
  | vx => rfl
  | vy => rfl

/-- The arithmetic between registers wraps or tests before it subtracts, so
no operation of it fails. -/
theorem combine_of (op : RegOp) (x y : Reg) :
    (of m c k).combine op x.byte y.byte = some (of (m.combine op x y) c k) := by
  unfold combine Machine.combine
  rw [get_of, get_of, shiftOperand_of]
  simp only [Option.bind_eq_bind, Option.bind_some]
  rcases op.apply (m.get x) (m.get y) (m.shiftOperand x y) with ⟨value, _ | flag⟩
  · simp [next_of]
  · simp [next_of]

/-- Drawing never leaves the screen, wherever a sprite is put and however
tall it is. -/
theorem draw_of (x y : Reg) (rows : Fin 16) :
    (of m c k).draw x.byte y.byte (Reg.byte rows) = some (of (m.draw x y rows.val) c k) := by
  have hbytes : (List.range (Reg.byte rows).toNat).mapM
      (fun i => readByte (of m c k).memory ((of m c k).index + UInt16.ofNat i))
        = some (m.memory.readMany m.index rows.val) := by
    rw [Reg.toNat_byte]
    exact mapM_eq_some fun i _ => readByte_eq m.memory (m.index + UInt16.ofNat i)
  have hrows : (m.memory.readMany m.index rows.val).length ≤ 2 ^ 31 := by
    have hlt := rows.isLt
    rw [Memory.readMany, List.length_map, List.length_range]
    omega
  unfold draw
  rw [hbytes, get_of, get_of]
  show (drawSprite m.display.lit _ _ _ >>= fun drawn => _) = _
  rw [drawSprite_eq _ _ _ hrows]
  rfl

/-- The low digit of a byte. -/
theorem toNat_and_digit (value : UInt8) : (value &&& 0xF).toNat = value.toNat % 16 := by
  rw [UInt8.toNat_and, show (0xF : UInt8).toNat = 2 ^ 4 - 1 from rfl,
    Nat.and_two_pow_sub_one_eq_mod]

/-- The key that a skip asks about is masked to the sixteen there are. -/
theorem keyIsDown_of (hdown : m.keypad.down = k.down) (x : Reg) :
    (of m c k).keyIsDown x.byte = some (m.keypad.isDown ((m.get x).toNat % 16)) := by
  unfold keyIsDown Keypad.isDown
  rw [get_of, hdown, ← toNat_and_digit]
  rfl

/-- The sum for FX1E is formed in 32 bits, so it does not overflow. -/
theorem addIndex_of (x : Reg) : (of m c k).addIndex x.byte = some (of (m.addIndex x) c k) := by
  have hindex := m.index.toNat_lt
  have hvalue := (m.get x).toNat_lt
  have hmoved : m.index + (m.get x).toUInt16 = UInt16.ofNat (m.index.toNat + (m.get x).toNat) := by
    refine UInt16.toNat_inj.mp ?_
    rw [UInt16.toNat_add, UInt16.toNat_ofNat']
    rfl
  unfold addIndex Machine.addIndex
  rw [get_of]
  show (sum 32 m.index.toNat (m.get x).toNat >>= fun wide => _) = _
  rw [sum_eq (by omega)]
  show (if m.config.flagsIndexOverflow then
    (do
      let r ← (of { m with index := m.index + (m.get x).toUInt16 } c k).set 0xF _
      return r.next)
    else some (of { m with index := m.index + (m.get x).toUInt16 } c k).next) = _
  rw [hmoved, set_of_flag]
  split
  · rfl
  · rfl

/-- Only the low digit of a register is multiplied by the rows of a glyph,
so the product fits its word. -/
theorem glyph_of (x : Reg) :
    (of m c k).glyph x.byte
      = some (of { m with index := Font.address (m.get x) }.next c k) := by
  have hdigit : ((m.get x) &&& 0xF).toNat = (m.get x).toNat % 16 := toNat_and_digit _
  have hrows : Font.glyphRows = 5 := rfl
  unfold glyph
  rw [get_of]
  show (product 16 ((m.get x) &&& 0xF).toNat Font.glyphRows >>= fun offset => _) = _
  rw [hdigit, product_eq (by rw [hrows]; omega)]
  show (sum 16 0 _ >>= fun start => _) = _
  rw [sum_eq (by rw [hrows]; omega), Nat.zero_add]
  rfl

/-- Each of the three digits is stored at an address that wraps. -/
theorem decimal_of (x : Reg) :
    (of m c k).decimal x.byte
      = some (of (m.storeBytes (Machine.decimalDigits (m.get x))).1.next c k) := by
  unfold decimal
  rw [get_of]
  show (writeByte m.memory.cells m.index _ >>= fun cells => _) = _
  rw [writeByte_eq]
  show (writeByte _ (m.index + 1) _ >>= fun cells => _) = _
  rw [writeByte_eq]
  show (writeByte _ (m.index + 2) _ >>= fun cells => _) = _
  rw [writeByte_eq, show m.index + 2 = m.index + 1 + 1 by rw [UInt16.add_assoc]; rfl]
  rfl

/-- I is moved on by at most sixteen, so the amount fits its type. -/
theorem advanceIndex_of (x : Reg) :
    (of m c k).advanceIndex x.byte = some (of (m.advanceIndex x) c k) := by
  have hx := x.isLt
  unfold advanceIndex Machine.advanceIndex
  rw [Reg.toNat_byte, sum_eq (by omega)]
  show (if m.config.advancesIndex then _ else _) = _
  split
  · rfl
  · rfl

/-- Storing registers indexes no register behind VX, and its addresses wrap
around. -/
theorem store_of (x : Reg) :
    (of m c k).store x.byte = some (of ((m.storeBytes (m.upTo x)).1.advanceIndex x).next c k) := by
  unfold store
  show ((List.range (x.byte.toNat + 1)).foldlM
      (fun cells i => do writeByte cells (m.index + UInt16.ofNat i) (← m.registers[i]?))
      m.memory.cells >>= fun cells => _) = _
  rw [Reg.toNat_byte, foldlM_writeByte _ _ _ x.isLt]
  show (do return (← (of (m.storeBytes (m.upTo x)).1 c k).advanceIndex x.byte).next) = _
  rw [advanceIndex_of]
  rfl

theorem load_of (x : Reg) :
    (of m c k).load x.byte = some (of ((m.loadRegisters x).advanceIndex x).next c k) := by
  have hround : ∀ ys : Vector UInt8 16, ∀ i < x.val + 1,
      (do write ys i (← readByte m.memory.cells (m.index + UInt16.ofNat i)))
        = write ys i (m.memory.read (m.index + UInt16.ofNat i)) := by
    intro ys i _
    rw [readByte_eq]
    rfl
  unfold load
  show ((List.range (x.byte.toNat + 1)).foldlM
      (fun registers i => do
        write registers i (← readByte m.memory.cells (m.index + UInt16.ofNat i)))
      m.registers >>= fun registers => _) = _
  rw [Reg.toNat_byte, foldlM_write _ x.isLt hround]
  have hloaded : (Vector.ofFn fun i : Fin 16 =>
      if i.val < x.val + 1 then m.memory.read (m.index + UInt16.ofNat i.val)
      else m.registers.get i) = (m.loadRegisters x).registers :=
    congrArg Vector.ofFn (funext fun i => if_congr Nat.lt_succ_iff rfl rfl)
  rw [hloaded]
  show (do return (← (of (m.loadRegisters x) c k).advanceIndex x.byte).next) = _
  rw [advanceIndex_of]
  rfl

/-- Looking for the awaited key finds one of the sixteen, or none. -/
theorem poll_of :
    (of m c k).poll = some
      (k.poll.1.map fun found => (found.1.byte, UInt8.ofNat found.2.val), of m c k.poll.2) := by
  obtain ⟨down, seen, asker⟩ := k
  cases asker with
  | none => rfl
  | some x =>
      unfold KeyLatch.poll
      show (pressed seen down >>= fun found => _) = _
      rw [pressed_eq]
      dsimp only
      cases Keys.fresh? seen down with
      | none => rfl
      | some key => rfl

/-- What is done with neither the slots nor the latch is done as the
machine does it. -/
theorem exec_of (hdown : m.keypad.down = k.down) {i : Instr} (hcall : ∀ t, i ≠ .call t)
    (hret : i ≠ .ret) (hawait : ∀ x, i ≠ .awaitKey x) :
    (of m c k).exec i.opcode
      = some ((m.exec i).mapState fun m' => of m' c k).unreported := by
  cases i with
  | call t => exact absurd rfl (hcall t)
  | ret => exact absurd rfl hret
  | awaitKey x => exact absurd rfl (hawait x)
  | jump t | setIndex t | clear => rfl
  | jumpPast t =>
      have hfirst : (of m c k).get 0 = some (m.get Reg.zero) := get_of Reg.zero
      simp only [exec, Instr.opcode, hfirst]
      rfl
  | skipIfByte x byte | skipUnlessByte x byte | skipIfSame x y | skipUnlessSame x y =>
      simp only [exec, Instr.opcode, get_of]
      rfl
  | skipIfKey x | skipUnlessKey x =>
      simp only [exec, Instr.opcode, keyIsDown_of hdown]
      rfl
  | setByte x byte | addByte x byte | getDelay x | setDelay x | setSound x =>
      simp only [exec, Instr.opcode, get_of, set_of]
      rfl
  | random x mask =>
      have hset (value : UInt8) : (of { m with random := m.random.next.2 } c k).set x.byte value
          = some (of ({ m with random := m.random.next.2 }.set x value) c k) := set_of x value
      show (of { m with random := m.random.next.2 } c k).set x.byte _ >>= _ = _
      rw [hset]
      rfl
  | combine op x y | addIndex x | glyph x | decimal x | store x | load x | draw x y rows =>
      simp only [exec, Instr.opcode, combine_of, addIndex_of, glyph_of, decimal_of, store_of,
        load_of, draw_of]
      rfl

end Raw

namespace Board

open Checked

/-- A board in storage. -/
def raw (b : Board) : Raw := Raw.of b.machine b.calls b.keys

/-- A call tests the stack pointer before it writes the slot, so the slot
exists. -/
theorem call_raw (b : Board) (t : Target) :
    b.raw.call t.word = some ((b.exec (.call t)).mapState raw).unreported := by
  have hle := b.calls.used_le
  unfold Raw.call
  rw [exec_call]
  by_cases hroom : b.calls.used < stackDepth
  · have hdepth : stackDepth = 16 := rfl
    rw [if_neg (show b.raw.used ≠ stackDepth from Nat.ne_of_lt hroom), dif_pos hroom]
    show (write b.calls.slots b.calls.used (b.pc + 2) >>= fun slots => _) = _
    rw [write_eq _ _ hroom]
    show (sum sizeBits b.calls.used 1 >>= fun used => _) = _
    rw [sum_eq (by rw [sizeBits]; omega)]
    rfl
  · rw [if_pos (show b.raw.used = stackDepth from Nat.le_antisymm hle (Nat.le_of_not_lt hroom)),
      dif_neg hroom]
    rfl

/-- A return tests the stack pointer before it counts it down, so it does
not go below zero. -/
theorem ret_raw (b : Board) : b.raw.ret = some ((b.exec .ret).mapState raw).unreported := by
  unfold Raw.ret
  rw [exec_ret]
  by_cases hopen : 0 < b.calls.used
  · rw [if_neg (show b.raw.used ≠ 0 from Nat.ne_of_gt hopen), dif_pos hopen]
    show (difference b.calls.used 1 >>= fun used => _) = _
    rw [difference_eq hopen]
    show (b.calls.slots[b.calls.used - 1]? >>= fun target => _) = _
    rw [Vector.getElem?_eq_getElem (b.calls.last_lt hopen)]
    rfl
  · rw [if_pos (show b.raw.used = 0 from Nat.eq_zero_of_not_pos hopen), dif_neg hopen]
    rfl

/-- Looking for the awaited key runs through every check, whether a wait is
on or has yet to begin. -/
theorem awaitKey_raw (b : Board) (x : Reg) :
    b.raw.awaitKey x.byte = some (b.awaitKey x).1.raw := by
  unfold Raw.awaitKey awaitKey
  rw [show b.raw.asker.isSome = b.keys.asker.isSome from Option.isSome_map]
  split
  · rw [show b.raw.poll = _ from Raw.poll_of]
    rcases b.keys.poll with ⟨_ | ⟨y, key⟩, keys⟩
    · rfl
    · show (do return (← (Raw.of b.machine b.calls keys).set y.byte _).next) = _
      rw [Raw.set_of]
      rfl
  · rfl

/-- Every instruction is run, and leaves the storage that the board is
left in, also where it gives up. -/
theorem exec_raw (b : Board) (i : Instr) :
    b.raw.exec i.opcode = some ((b.exec i).mapState raw).unreported := by
  have hshared (hcall : ∀ t, i ≠ .call t) (hret : i ≠ .ret) (hawait : ∀ x, i ≠ .awaitKey x) :
      b.raw.exec i.opcode = some ((b.execShared i).mapState raw).unreported := by
    refine (Raw.exec_of rfl hcall hret hawait).trans (congrArg some ?_)
    unfold execShared
    cases b.machine.exec i with
    | error fault => rfl
    | ok out => rfl
  cases i with
  | call t => exact b.call_raw t
  | ret => exact b.ret_raw
  | awaitKey x =>
      show (do return Except.ok (← b.raw.awaitKey x.byte)) = _
      rw [awaitKey_raw]
      rfl
  | _ => exact hshared nofun nofun nofun

end Board

end Chip8
