/-
Where the program counter goes.

Every instruction says where to go on. Four say it outright: the jumps,
the call and the return (`Instr.redirects`). Six skip the next
instruction on a condition (`Instr.condition`), and go on by four bytes
instead of two. FX0A stays where it is until a key ends its wait. All
others go on to the next instruction, whatever else they do and however
they are configured.

No instruction gets by without saying it. So a cycle after which the
program counter is where it was has either waited for a key or gone to
its own address on purpose.

Conditions and targets are those of the machine before the cycle: an
instruction that writes the registers looks at them first.
-/
import Chip8.Proofs.KeyWait
import Chip8.Proofs.CallStack

namespace Chip8

open Machine

/-- Whether an instruction names the address to go on at. -/
def Instr.redirects : Instr → Bool
  | .jump _ | .jumpPast _ | .call _ | .ret => true
  | _ => false

/-- The low digit of a byte is the number of a key. -/
theorem Key.lowDigit_lt (value : UInt8) : value.toNat % 16 < 16 :=
  Nat.mod_lt value.toNat (by decide)

/-- The key that a register stands for: the one with the number in it,
modulo 16. -/
def Key.ofByte (value : UInt8) : Key := ⟨value.toNat % 16, lowDigit_lt value⟩

/-- The condition on which an instruction skips the next one, if it is one
that skips. -/
def Instr.condition (m : Machine) : Instr → Option Bool
  | .skipIfByte x byte => some (decide (m.get x = byte))
  | .skipUnlessByte x byte => some (decide (m.get x ≠ byte))
  | .skipIfSame x y => some (decide (m.get x = m.get y))
  | .skipUnlessSame x y => some (decide (m.get x ≠ m.get y))
  | .skipIfKey x => some (m.keypad.down.get (Key.ofByte (m.get x)))
  | .skipUnlessKey x => some (!m.keypad.down.get (Key.ofByte (m.get x)))
  | _ => none

/-- A skip asks about the key that the low digit of the register names. -/
theorem Keypad.isDown_mod {α : Type} (k : Keypad α) (value : UInt8) :
    k.isDown (value.toNat % 16) = k.down.get (Key.ofByte value) := by
  unfold Keypad.isDown
  rw [Vector.getElem?_eq_getElem (Key.lowDigit_lt value)]
  rfl

namespace Machine

variable {m m' : Machine} {x y : Reg} {i : Instr} {events : List Event}

-- ===================================================== going on by two

/-- Arithmetic between registers goes on to the next instruction. -/
theorem combine_pc (m : Machine) (op : RegOp) (x y : Reg) :
    (m.combine op x y).pc = m.pc + 2 := by
  unfold combine
  split
  · rfl
  · rfl

theorem addIndex_pc (m : Machine) (x : Reg) : (m.addIndex x).pc = m.pc + 2 := by
  unfold addIndex
  dsimp only
  split
  · rfl
  · rfl

theorem advanceIndex_pc (m : Machine) (x : Reg) : (m.advanceIndex x).pc = m.pc := by
  unfold advanceIndex
  split
  · rfl
  · rfl

/-- An instruction that neither names an address, nor skips, nor waits
goes on to the next one. -/
theorem exec_pc_next (h : m.exec i = .ok (m', events)) (hredirect : i.redirects = false)
    (hskip : i.condition m = none) (hawait : ∀ x, i ≠ .awaitKey x) : m'.pc = m.pc + 2 := by
  cases i with
  | jump | jumpPast | call | ret => cases hredirect
  | skipIfByte | skipUnlessByte | skipIfSame | skipUnlessSame | skipIfKey | skipUnlessKey =>
      cases hskip
  | awaitKey x => exact absurd rfl (hawait x)
  | combine op x y =>
      cases h
      exact m.combine_pc op x y
  | addIndex x =>
      cases h
      exact m.addIndex_pc x
  | store x =>
      cases h
      show (advanceIndex _ x).pc + 2 = m.pc + 2
      rw [advanceIndex_pc]
  | load x =>
      cases h
      show (advanceIndex _ x).pc + 2 = m.pc + 2
      rw [advanceIndex_pc]
      rfl
  | _ =>
      cases h
      rfl

-- ============================================================ skipping

/-- An instruction that skips goes on by four if its condition held when
it was run, and by two if not. -/
theorem exec_pc_skip {c : Bool} (h : m.exec i = .ok (m', events))
    (hskip : i.condition m = some c) : m'.pc = m.pc + if c then 4 else 2 := by
  cases i with
  | skipIfByte | skipUnlessByte | skipIfSame | skipUnlessSame =>
      cases h
      cases hskip
      simp [skipIf]
  | skipIfKey x | skipUnlessKey x =>
      cases h
      cases hskip
      rw [Keypad.isDown_mod]
      rfl
  | _ => cases hskip

-- ============================================================= waiting

/-- FX0A waits and stays where it is, or ends a wait and goes on. -/
theorem awaitKey_pc (h : m.exec (.awaitKey x) = .ok (m', events)) :
    (m'.keypad.isWaiting = true ∧ m'.pc = m.pc)
      ∨ (m.keypad.isWaiting = true ∧ m'.keypad.isWaiting = false ∧ m'.pc = m.pc + 2) := by
  have hexec : m.exec (.awaitKey x) = .ok (m.awaitKey x) := rfl
  cases hw : m.keypad.wait with
  | none =>
      rw [hexec, awaitKey_begins hw] at h
      cases h
      exact Or.inl ⟨rfl, rfl⟩
  | some w =>
      cases hf : Keys.fresh? w.seen m.keypad.down with
      | none =>
          rw [hexec, awaitKey_goes_on hw hf] at h
          cases h
          exact Or.inl ⟨rfl, rfl⟩
      | some key =>
          rw [hexec, awaitKey_ends hw hf] at h
          cases h
          exact Or.inr ⟨Option.isSome_iff_exists.mpr ⟨w, hw⟩, rfl, rfl⟩

-- ========================================================= redirection

theorem toNat_word (t : Target) : t.word.toNat = t.val := by
  have hlt := t.isLt
  rw [Target.word, UInt16.toNat_ofNat', Nat.mod_eq_of_lt (by omega)]

/-- A step past one instruction or two wraps at the end of the addresses. -/
theorem toNat_add_step (a : UInt16) (c : Bool) :
    (a + if c then 4 else 2).toNat = (a.toNat + if c then 4 else 2) % 65536 := by
  cases c with
  | true => exact UInt16.toNat_add a 4
  | false => exact UInt16.toNat_add a 2

/-- What comes behind an instruction is not the instruction. -/
theorem add_step_ne (a : UInt16) (c : Bool) : a + (if c then 4 else 2) ≠ a := by
  intro heq
  have hstep := toNat_add_step a c
  rw [heq] at hstep
  have hlt := a.toNat_lt
  cases c with
  | true =>
      simp only [if_true] at hstep
      omega
  | false =>
      simp only [Bool.false_eq_true, if_false] at hstep
      omega

/-- A jump and a call go to their target. -/
theorem direct_pc {t : Target} (hi : i = .jump t ∨ i = .call t)
    (h : m.exec i = .ok (m', events)) : m'.pc.toNat = t.val := by
  rcases hi with rfl | rfl
  · cases h
    exact toNat_word t
  · rw [exec_call (call_pushes h).1] at h
    cases h
    exact toNat_word t

/-- BNNN goes to its target and V0 together, and wraps at the end of the
addresses. -/
theorem jumpPast_pc {t : Target} (h : m.exec (.jumpPast t) = .ok (m', events)) :
    m'.pc.toNat = (t.val + (m.get Reg.zero).toNat) % 65536 := by
  cases h
  show (t.word + (m.get Reg.zero).toUInt16).toNat = _
  rw [UInt16.toNat_add, toNat_word, UInt8.toNat_toUInt16]

/-- A return goes to the address pushed last. -/
theorem ret_pc (h : m.exec .ret = .ok (m', events)) :
    m.snapshot.stack.getLast? = some m'.pc := by
  show m.stack.reverse.getLast? = some m'.pc
  rw [ret_pops h, List.getLast?_reverse]
  rfl

/-- Where the program counter is what it was, the instruction is still
waiting or has gone to its own address. -/
theorem exec_stays (h : m.exec i = .ok (m', events)) (hsame : m'.pc = m.pc) :
    (∃ x, i = .awaitKey x ∧ m'.keypad.isWaiting = true)
      ∨ (∃ t, (i = .jump t ∨ i = .call t) ∧ t.val = m.pc.toNat)
      ∨ (∃ t, i = .jumpPast t ∧ (t.val + (m.get Reg.zero).toNat) % 65536 = m.pc.toNat)
      ∨ (i = .ret ∧ m.snapshot.stack.getLast? = some m.pc) := by
  -- What skips or goes on by two cannot stay, so one of the others was run.
  cases hskip : i.condition m with
  | some c => exact absurd ((exec_pc_skip h hskip).symm.trans hsame) (add_step_ne m.pc c)
  | none =>
      cases i with
      | jump t =>
          rw [← hsame]
          exact Or.inr (Or.inl ⟨t, Or.inl rfl, (direct_pc (Or.inl rfl) h).symm⟩)
      | call t =>
          rw [← hsame]
          exact Or.inr (Or.inl ⟨t, Or.inr rfl, (direct_pc (Or.inr rfl) h).symm⟩)
      | jumpPast t =>
          rw [← hsame]
          exact Or.inr (Or.inr (Or.inl ⟨t, rfl, (jumpPast_pc h).symm⟩))
      | ret =>
          rw [← hsame]
          exact Or.inr (Or.inr (Or.inr ⟨rfl, ret_pc h⟩))
      | awaitKey x =>
          rcases awaitKey_pc h with ⟨hwaits, -⟩ | ⟨-, -, hpc⟩
          · exact Or.inl ⟨x, rfl, hwaits⟩
          · exact absurd (hpc.symm.trans hsame) (add_step_ne m.pc false)
      | _ =>
          have hpc := exec_pc_next h rfl hskip nofun
          exact absurd (hpc.symm.trans hsame) (add_step_ne m.pc false)

-- ======================================================== the contract

/-- The program counter goes where the instruction says, on every machine
whose cycle answers that an instruction was run:

- 1NNN and 2NNN go to NNN, BNNN to NNN + V0, 00EE to the newest of the
  addresses to return to;
- 3XNN, 4XNN, 5XY0, 9XY0, EX9E and EXA1 go on by four if their condition
  held before the cycle, and by two if it did not;
- FX0A goes on by two if this cycle ends a wait, and stays if it does not;
- all others go on by two.

Sums are modulo 2^16. So where the program counter is what it was, FX0A
is still waiting, or a jump, a call or a return went to its own
address. -/
theorem pc_goes_as_told (h : m.cycle.reply = .ok (some i)) :
    (∀ t, i = .jump t ∨ i = .call t → m.cycle.machine.pc.toNat = t.val)
      ∧ (∀ t, i = .jumpPast t →
          m.cycle.machine.pc.toNat = (t.val + (m.get Reg.zero).toNat) % 65536)
      ∧ (i = .ret → m.snapshot.stack.getLast? = some m.cycle.machine.pc)
      ∧ (∀ c, i.condition m = some c →
          m.cycle.machine.pc.toNat = (m.pc.toNat + if c then 4 else 2) % 65536)
      ∧ (∀ x, i = .awaitKey x → m.cycle.machine.pc.toNat
          = if m.keypad.isWaiting = true ∧ m.cycle.machine.keypad.isWaiting = false
              then (m.pc.toNat + 2) % 65536 else m.pc.toNat)
      ∧ (i.redirects = false → i.condition m = none → (∀ x, i ≠ .awaitKey x) →
          m.cycle.machine.pc.toNat = (m.pc.toNat + 2) % 65536)
      ∧ (m.cycle.machine.pc = m.pc →
          (∃ x, i = .awaitKey x ∧ m.cycle.machine.keypad.isWaiting = true)
          ∨ (∃ t, (i = .jump t ∨ i = .call t) ∧ t.val = m.pc.toNat)
          ∨ (∃ t, i = .jumpPast t ∧ (t.val + (m.get Reg.zero).toNat) % 65536 = m.pc.toNat)
          ∨ (i = .ret ∧ m.snapshot.stack.getLast? = some m.pc)) := by
  obtain ⟨-, -, events, hexec⟩ := exec_of_cycle_reply h
  generalize m.cycle.machine = m' at hexec ⊢
  refine ⟨fun t hi => direct_pc hi hexec, ?_, ?_, fun c hc => ?_, ?_, fun hr hc ha => ?_,
    exec_stays hexec⟩
  · rintro t rfl
    exact jumpPast_pc hexec
  · rintro rfl
    exact ret_pc hexec
  · rw [exec_pc_skip hexec hc, toNat_add_step]
  · rintro x rfl
    rcases awaitKey_pc hexec with ⟨hwaits, hpc⟩ | ⟨hwaited, hends, hpc⟩
    · rw [if_neg (fun hend => Bool.noConfusion (hwaits.symm.trans hend.2)), hpc]
    · rw [if_pos ⟨hwaited, hends⟩, hpc]
      exact toNat_add_step m.pc false
  · rw [exec_pc_next hexec hr hc ha]
    exact toNat_add_step m.pc false

/-- A program that skips if the key in V0 is down. -/
def skipOnKey : Array UInt8 := #[0xE0, 0x9E]

/-- The machine at that instruction, with the key down. -/
def beforeSkip : Machine := ((booted skipOnKey).setKey 0 true).machine

/-- The key in V0 is held, so the machine goes on by four. -/
theorem held_key_skips :
    beforeSkip.Reachable ∧ beforeSkip.cycle.reply = .ok (some (.skipIfKey Reg.zero))
      ∧ (Instr.skipIfKey Reg.zero).condition beforeSkip = some true
      ∧ beforeSkip.cycle.machine.pc.toNat = 0x204 := by
  have hsize : skipOnKey.size ≤ Memory.capacity := by decide
  have hreach : beforeSkip.Reachable := .perform 0 (.setKey 0 true) (reachable_booted hsize)
  have hmem : beforeSkip.memory = Memory.ofProgram skipOnKey := rfl
  have hdec : Instr.decode? beforeSkip.fetch = some (.skipIfKey Reg.zero) :=
    Memory.decode_ofProgram (k := 0) hmem rfl (by decide) rfl
  have hreply : beforeSkip.cycle.reply = .ok (some (.skipIfKey Reg.zero)) := by
    rw [cycle_of_exec rfl hdec rfl]
  have hcondition : (Instr.skipIfKey Reg.zero).condition beforeSkip = some true := rfl
  obtain ⟨-, -, -, hskip, -⟩ := pc_goes_as_told hreply
  exact ⟨hreach, hreply, hcondition, hskip true hcondition⟩

end Machine

end Chip8
