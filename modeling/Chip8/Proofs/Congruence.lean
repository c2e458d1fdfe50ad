/-
Machines that differ in nothing but the high bits of their addresses.

I, the program counter and the return addresses are sixteen bits wide,
and the memory is chosen by the low twelve of them. Two machines are
congruent if they agree in all else, and their addresses in those twelve
bits.

An instruction does one of three things with an address: it replaces it
by one of its own, it adds something to it, or it uses it to choose a
cell. The first two keep addresses congruent, since the sixteen bits wrap
at a multiple of the twelve (`SameCell.add`), and the third gives the
same cell. Only the flag of FX1E looks at an address as a whole, and it
does (`flag_sees_high_bits`). So congruent machines run the same
instruction, and are congruent when it has run, or has given up
(`Congruent.exec`).

What a host gets to hear is the same, but for where a fault says that it
happened; that is congruent too (`Reply.Congruent`). The calls of a host
are gone through once (`Congruent.perform`); what comes of a script is
said of boards, in `TwelveBits.lean`.
-/
import Chip8.Proofs.CallStack

namespace Chip8

-- ============================================================ addresses

/-- Two addresses that agree in their low twelve bits. -/
def SameCell (a a' : UInt16) : Prop := a.toNat % 4096 = a'.toNat % 4096

namespace SameCell

/-- An address falls on its own cell. -/
theorem refl (a : UInt16) : SameCell a a := Eq.refl _

theorem trans {a b c : UInt16} (h : SameCell a b) (h' : SameCell b c) : SameCell a c :=
  Eq.trans h h'

/-- Addresses in a list agree one by one if their low twelve bits are the
same list. -/
theorem forall₂_iff {l l' : List UInt16} :
    List.Forall₂ SameCell l l' ↔ l.map (·.toNat % 4096) = l'.map (·.toNat % 4096) := by
  rw [← List.forall₂_eq_eq_eq, List.forall₂_map_left_iff, List.forall₂_map_right_iff]
  rfl

theorem forall₂_trans {l₁ l₂ l₃ : List UInt16} (h : List.Forall₂ SameCell l₁ l₂)
    (h' : List.Forall₂ SameCell l₂ l₃) : List.Forall₂ SameCell l₁ l₃ :=
  forall₂_iff.mpr ((forall₂_iff.mp h).trans (forall₂_iff.mp h'))

/-- Addresses on the same cell wrap to the same cell. -/
theorem ofAddress {a a' : UInt16} (h : SameCell a a') : Cell.ofAddress a = Cell.ofAddress a' :=
  Fin.ext h

/-- Sixteen bits wrap where twelve bits do. -/
theorem add {a a' : UInt16} (h : SameCell a a') (k : UInt16) : SameCell (a + k) (a' + k) := by
  unfold SameCell at h ⊢
  rw [UInt16.toNat_add, UInt16.toNat_add]
  omega

end SameCell

namespace Memory

variable {a a' : UInt16}

/-- A byte is the same at either address. -/
theorem read_sameCell (m : Memory) (h : SameCell a a') : m.read a = m.read a' := by
  show m.cells.get (Cell.ofAddress a) = m.cells.get (Cell.ofAddress a')
  rw [h.ofAddress]

theorem readMany_sameCell (m : Memory) (h : SameCell a a') (n : Nat) :
    m.readMany a n = m.readMany a' n :=
  List.map_congr_left fun _ _ => m.read_sameCell (h.add _)

theorem readWord_sameCell (m : Memory) (h : SameCell a a') : m.readWord a = m.readWord a' := by
  unfold readWord
  rw [m.read_sameCell h, m.read_sameCell (h.add 1)]

/-- A store looks at cells only, and so does its guard of the font. -/
theorem store_sameCell (h : SameCell a a') (bytes : List UInt8) (m : Memory) :
    m.store a bytes = m.store a' bytes := by
  induction bytes generalizing m a a' with
  | nil => rfl
  | cons byte rest ih =>
      rw [store, store, h.ofAddress]
      dsimp only
      rw [ih (h.add 1)]

end Memory

-- ============================================================= machines

/-- Two machines whose addresses agree in their low twelve bits, and that
agree in everything else. -/
structure Machine.Congruent (m m' : Machine) : Prop where
  config : m'.config = m.config
  memory : m'.memory = m.memory
  registers : m'.registers = m.registers
  index : SameCell m.index m'.index
  pc : SameCell m.pc m'.pc
  stack : List.Forall₂ SameCell m.stack m'.stack
  timers : m'.timers = m.timers
  clock : m'.clock = m.clock
  display : m'.display = m.display
  keypad : m'.keypad = m.keypad
  stopped : m'.stopped = m.stopped
  random : m'.random = m.random

/-- The same fault, but for the high bits of where it happened. -/
inductive Fault.Congruent : Fault → Fault → Prop where
  | unknownInstruction (word : UInt16) {pc pc' : UInt16} : SameCell pc pc' →
      Congruent (.unknownInstruction word pc) (.unknownInstruction word pc')
  | stackOverflow {pc pc' : UInt16} : SameCell pc pc' →
      Congruent (.stackOverflow pc) (.stackOverflow pc')
  | stackUnderflow {pc pc' : UInt16} : SameCell pc pc' →
      Congruent (.stackUnderflow pc) (.stackUnderflow pc')

/-- The same answer, but for the high bits of where a fault happened. -/
inductive Reply.Congruent : Reply → Reply → Prop where
  | same (r : Reply) : Congruent r r
  | fault {f f' : Fault} : f.Congruent f' →
      Congruent (.failed (.fault f)) (.failed (.fault f'))

/-- What an instruction comes to on two congruent machines. -/
inductive ExecCongruent : Ran Machine → Ran Machine → Prop where
  | ok {out out' : Machine × List Event} : out.1.Congruent out'.1 →
      ExecCongruent (.ok out) (.ok out')
  | error {g g' : Faulted Machine} : g.fault.Congruent g'.fault → g.state.Congruent g'.state →
      ExecCongruent (.error g) (.error g')

/-- If the instruction runs on one machine, it runs on the other. -/
theorem ExecCongruent.of_ok {out : Machine × List Event} {r : Ran Machine}
    (h : ExecCongruent (.ok out) r) : ∃ out', r = .ok out' ∧ out.1.Congruent out'.1 := by
  cases h with
  | ok hout => exact ⟨_, rfl, hout⟩

/-- If the instruction gives up on one machine, it gives up on the
other. -/
theorem ExecCongruent.of_error {g : Faulted Machine} {r : Ran Machine}
    (h : ExecCongruent (.error g) r) :
    ∃ g', r = .error g' ∧ g.fault.Congruent g'.fault ∧ g.state.Congruent g'.state := by
  cases h with
  | error hf hs => exact ⟨_, rfl, hf, hs⟩

namespace Machine

variable {m m' : Machine}

/-- Only the addresses count. -/
theorem congruent_with {index pc : UInt16} {stack : List UInt16} (hindex : SameCell m.index index)
    (hpc : SameCell m.pc pc) (hstack : List.Forall₂ SameCell m.stack stack) :
    m.Congruent { m with index := index, pc := pc, stack := stack } :=
  ⟨rfl, rfl, rfl, hindex, hpc, hstack, rfl, rfl, rfl, rfl, rfl, rfl⟩

/-- A machine is congruent to itself. -/
theorem Congruent.refl (m : Machine) : m.Congruent m :=
  congruent_with (.refl _) (.refl _) (List.forall₂_same.mpr fun _ _ => .refl _)

/-- What is congruent to a machine is that machine with other
addresses. -/
theorem Congruent.exists_addresses (h : m.Congruent m') :
    ∃ index pc stack, m' = { m with index := index, pc := pc, stack := stack } := by
  obtain ⟨_, _, _, index, pc, stack, _, _, _, _, _, _⟩ := m'
  obtain ⟨hconfig, hmemory, hregisters, -, -, -, htimers, hclock, hdisplay, hkeypad, hstopped,
    hrandom⟩ := h
  cases hconfig
  cases hmemory
  cases hregisters
  cases htimers
  cases hclock
  cases hdisplay
  cases hkeypad
  cases hstopped
  cases hrandom
  exact ⟨index, pc, stack, rfl⟩

/-- Congruent machines are about to run the same word. -/
theorem Congruent.fetch (h : m.Congruent m') : m.fetch = m'.fetch := by
  unfold Machine.fetch
  rw [h.memory]
  exact m.memory.readWord_sameCell h.pc

-- ======================================================= an instruction

/-- Going on to the next instruction keeps machines congruent, as both wrap
together. -/
theorem Congruent.next (h : m.Congruent m') : m.next.Congruent m'.next :=
  { h with pc := h.pc.add 2 }

/-- Arithmetic between registers looks at no address. -/
theorem Congruent.combine (h : m.Congruent m') (op : RegOp) (x y : Reg) :
    (m.combine op x y).Congruent (m'.combine op x y) := by
  obtain ⟨index, pc, stack, rfl⟩ := h.exists_addresses
  cases op <;> exact congruent_with h.index (h.pc.add 2) h.stack

/-- The rows of a sprite are the same from either I, so the same pixels are
drawn. -/
theorem Congruent.draw (h : m.Congruent m') (x y : Reg) (rows : Nat) :
    (m.draw x y rows).Congruent (m'.draw x y rows) := by
  obtain ⟨index, pc, stack, rfl⟩ := h.exists_addresses
  unfold Machine.draw
  dsimp only
  rw [← m.memory.readMany_sameCell h.index]
  exact congruent_with h.index (h.pc.add 2) h.stack

/-- A wait for a key goes on alike: it looks at keypad and pc only, and the
pc stays or goes on alike. -/
theorem Congruent.awaitKey (h : m.Congruent m') (x : Reg) :
    (m.awaitKey x).1.Congruent (m'.awaitKey x).1 := by
  obtain ⟨index, pc, stack, rfl⟩ := h.exists_addresses
  unfold Machine.awaitKey
  split
  · rcases m.keypad.poll with ⟨_ | ⟨y, key⟩, keypad⟩
    · exact congruent_with h.index h.pc h.stack
    · exact congruent_with h.index (h.pc.add 2) h.stack
  · exact congruent_with h.index h.pc h.stack

/-- Without its flag, FX1E only adds to I. -/
theorem Congruent.addIndex (h : m.Congruent m') (hflag : m.config.flagsIndexOverflow = false)
    (x : Reg) : (m.addIndex x).Congruent (m'.addIndex x) := by
  obtain ⟨index, pc, stack, rfl⟩ := h.exists_addresses
  have hindex : SameCell (UInt16.ofNat (m.index.toNat + (m.get x).toNat))
      (UInt16.ofNat (index.toNat + (m.get x).toNat)) := by
    rw [UInt16.ofNat_add, UInt16.ofNat_add, UInt16.ofNat_toNat, UInt16.ofNat_toNat]
    exact h.index.add _
  unfold Machine.addIndex
  dsimp only
  rw [hflag]
  exact congruent_with hindex (h.pc.add 2) h.stack

/-- With its flag, FX1E tells whether I left the memory, and an I with
high bits has left it before anything is added. -/
theorem flag_sees_high_bits (h : m.Congruent m') (hflag : m.config.flagsIndexOverflow = true)
    {x : Reg} (hlow : m.index.toNat + (m.get x).toNat < 4096) (hhigh : 4096 ≤ m'.index.toNat) :
    (m.addIndex x).get Reg.flag = 0 ∧ (m'.addIndex x).get Reg.flag = 1 := by
  have hget (m : Machine) (hflag : m.config.flagsIndexOverflow = true) :
      (m.addIndex x).get Reg.flag
        = (decide (4096 ≤ m.index.toNat + (m.get x).toNat)).toUInt8 := by
    unfold Machine.addIndex
    dsimp only
    rw [if_pos hflag]
    exact Vector.getElem_set_self _
  rw [hget m hflag, hget m' (h.config ▸ hflag), decide_eq_false (Nat.not_le.mpr hlow),
    decide_eq_true (Nat.le_add_right_of_le hhigh)]
  exact ⟨rfl, rfl⟩

/-- A store writes the same cells. -/
theorem Congruent.storeBytes (h : m.Congruent m') (bytes : List UInt8) :
    (m.storeBytes bytes).1.Congruent (m'.storeBytes bytes).1 := by
  obtain ⟨index, pc, stack, rfl⟩ := h.exists_addresses
  unfold Machine.storeBytes
  dsimp only
  rw [← Memory.store_sameCell h.index]
  exact congruent_with h.index h.pc h.stack

theorem Congruent.loadRegisters (h : m.Congruent m') (x : Reg) :
    (m.loadRegisters x).Congruent (m'.loadRegisters x) := by
  obtain ⟨index, pc, stack, rfl⟩ := h.exists_addresses
  have hread (i : Reg) :
      m.memory.read (m.index + UInt16.ofNat i.val) = m.memory.read (index + UInt16.ofNat i.val) :=
    m.memory.read_sameCell (h.index.add _)
  unfold Machine.loadRegisters
  simp only [hread]
  exact congruent_with h.index h.pc h.stack

theorem Congruent.advanceIndex (h : m.Congruent m') (x : Reg) :
    (m.advanceIndex x).Congruent (m'.advanceIndex x) := by
  obtain ⟨index, pc, stack, rfl⟩ := h.exists_addresses
  unfold Machine.advanceIndex
  dsimp only
  split
  · exact congruent_with (h.index.add _) h.pc h.stack
  · exact h

/-- Congruent machines run an instruction alike, with the same fault if it
fails, unless it is an FX1E that sets the flag: no other instruction looks
at an address as a whole. -/
theorem Congruent.exec (h : m.Congruent m') (i : Instr)
    (hflag : m.config.flagsIndexOverflow = false ∨ ∀ x, i ≠ .addIndex x) :
    ExecCongruent (m.exec i) (m'.exec i) := by
  obtain ⟨index, pc, stack, rfl⟩ := h.exists_addresses
  cases i with
  | jump t => exact .ok (congruent_with h.index (.refl _) h.stack)
  | jumpPast t => exact .ok (congruent_with h.index (.refl _) h.stack)
  | setIndex t => exact .ok (congruent_with (.refl _) (h.pc.add 2) h.stack)
  | glyph x => exact .ok (congruent_with (.refl _) (h.pc.add 2) h.stack)
  | call t =>
      have hlength : m.stack.length = stack.length := h.stack.length_eq
      by_cases hroom : m.stack.length < stackDepth
      · rw [exec_call hroom, exec_call (hlength ▸ hroom)]
        exact .ok (congruent_with h.index (.refl _) (.cons (h.pc.add 2) h.stack))
      · have hfull : stackDepth ≤ m.stack.length := Nat.le_of_not_lt hroom
        rw [exec_call_of_full hfull, exec_call_of_full (hlength ▸ hfull)]
        exact .error (.stackOverflow h.pc) h
  | ret =>
      have hstack : List.Forall₂ SameCell m.stack stack := h.stack
      cases hcalls : m.stack with
      | nil =>
          rw [hcalls] at hstack
          cases hstack
          rw [exec_ret_of_empty hcalls, exec_ret_of_empty rfl]
          exact .error (.stackUnderflow h.pc) h
      | cons target rest =>
          rw [hcalls] at hstack
          obtain _ | ⟨htarget, hrest⟩ := hstack
          rw [exec_ret hcalls, exec_ret rfl]
          exact .ok (congruent_with h.index htarget hrest)
  | combine op x y => exact .ok (h.combine op x y)
  | addIndex x =>
      rcases hflag with hflag | hne
      · exact .ok (h.addIndex hflag x)
      · exact absurd rfl (hne x)
  | draw x y rows => exact .ok (h.draw x y rows.val)
  | awaitKey x => exact .ok (h.awaitKey x)
  | store x => exact .ok ((h.storeBytes (m.upTo x)).advanceIndex x).next
  | load x => exact .ok ((h.loadRegisters x).advanceIndex x).next
  | decimal x => exact .ok (h.storeBytes (decimalDigits (m.get x))).next
  | _ => exact .ok (congruent_with h.index (h.pc.add _) h.stack)

-- ================================================================ a call

theorem Congruent.stop (h : m.Congruent m') :
    ({ m with stopped := true } : Machine).Congruent { m' with stopped := true } :=
  { h with stopped := rfl }

/-- A cycle answers alike on two congruent machines, and leaves them
congruent. -/
theorem Congruent.cycle (h : m.Congruent m')
    (hflag : m.config.flagsIndexOverflow = false
      ∨ ∀ x, Reply.ofCycle m.cycle.reply ≠ .ran (.addIndex x)) :
    (Reply.ofCycle m.cycle.reply).Congruent (Reply.ofCycle m'.cycle.reply)
      ∧ m.cycle.machine.Congruent m'.cycle.machine := by
  rcases m.cycle_cases with ⟨hrun, hc⟩ | ⟨hrun, hdec, hc⟩ | ⟨i, g, hrun, hdec, hexec, -⟩
    | ⟨i, out, events, hrun, hdec, hexec, hc⟩
  · rw [hc, cycle_of_stopped (h.stopped.trans hrun)]
    exact ⟨.same _, h⟩
  · rw [hc, cycle_of_unknown (h.stopped.trans hrun) (h.fetch ▸ hdec), ← h.fetch]
    exact ⟨.fault (.unknownInstruction _ h.pc), h.stop⟩
  · -- FX1E cannot fault, so nothing has to be known of its flag
    have hne : ∀ x, i ≠ .addIndex x := by
      rintro x rfl
      cases hexec
    have hexec' := h.exec i (Or.inr hne)
    rw [hexec] at hexec'
    obtain ⟨g', heq, hf, hs⟩ := hexec'.of_error
    rw [cycle_of_error hrun hdec hexec, cycle_of_error (h.stopped.trans hrun) (h.fetch ▸ hdec) heq]
    exact ⟨.fault hf, hs.stop⟩
  · have hflag' : m.config.flagsIndexOverflow = false ∨ ∀ x, i ≠ .addIndex x := by
      refine hflag.imp_right fun hne x hi => hne x ?_
      rw [hc, hi]
      rfl
    have hexec' := h.exec i hflag'
    rw [hexec] at hexec'
    obtain ⟨out', heq, hout⟩ := hexec'.of_ok
    rw [hc, cycle_of_exec (h.stopped.trans hrun) (h.fetch ▸ hdec) heq]
    exact ⟨.same _, hout⟩

/-- A load is refused by both or by none, and leaves them congruent. -/
theorem Congruent.load (h : m.Congruent m') (now : Instant) (program : Array UInt8) :
    (m.load now program).reply = (m'.load now program).reply
      ∧ (m.load now program).machine.Congruent (m'.load now program).machine := by
  by_cases hfit : program.size ≤ Memory.capacity
  · rw [load_of_fits m now hfit, load_of_fits m' now hfit, h.config, h.random]
    exact ⟨rfl, .refl _⟩
  · unfold Machine.load
    rw [if_pos (Nat.lt_of_not_le hfit), if_pos (Nat.lt_of_not_le hfit)]
    exact ⟨rfl, h⟩

theorem Congruent.setKey (h : m.Congruent m') (code : UInt8) (isDown : Bool) :
    (m.setKey code isDown).reply = (m'.setKey code isDown).reply
      ∧ (m.setKey code isDown).machine.Congruent (m'.setKey code isDown).machine := by
  obtain ⟨index, pc, stack, rfl⟩ := h.exists_addresses
  unfold Machine.setKey
  split
  · exact ⟨rfl, congruent_with h.index h.pc h.stack⟩
  · exact ⟨rfl, h⟩

theorem Congruent.setKeys (h : m.Congruent m') (keys : List Key) :
    (m.setKeys keys).Congruent (m'.setKeys keys) := by
  obtain ⟨index, pc, stack, rfl⟩ := h.exists_addresses
  unfold Machine.setKeys
  exact congruent_with h.index h.pc h.stack

/-- Whatever a host calls on two congruent machines, it gets congruent
answers and leaves congruent machines. -/
theorem Congruent.perform (h : m.Congruent m') (now : Instant) (a : Action)
    (hflag : m.config.flagsIndexOverflow = false
      ∨ ∀ x, (m.perform now a).reply ≠ .ran (.addIndex x)) :
    (m.perform now a).reply.Congruent (m'.perform now a).reply
      ∧ (m.perform now a).machine.Congruent (m'.perform now a).machine := by
  have hof {r r' : Except Error Unit} (hr : r = r') :
      (Reply.ofExcept r).Congruent (Reply.ofExcept r') := hr ▸ .same _
  cases a with
  | cycle => exact h.cycle hflag
  | load program => exact (h.load now program).imp_left hof
  | loadFile path contents =>
      cases contents with
      | error problem => exact ⟨.same _, h⟩
      | ok program => exact (h.load now program).imp_left hof
  | setKey code isDown => exact (h.setKey code isDown).imp_left hof
  | setKeys keys => exact ⟨.same _, h.setKeys keys⟩
  | reset =>
      show Reply.Congruent .done .done ∧ (Machine.fresh m.config m.random now).Congruent
        (Machine.fresh m'.config m'.random now)
      rw [h.config, h.random]
      exact ⟨.same _, .refl _⟩
  | _ =>
      obtain ⟨index, pc, stack, rfl⟩ := h.exists_addresses
      exact ⟨.same _, congruent_with h.index h.pc h.stack⟩

end Machine

end Chip8
