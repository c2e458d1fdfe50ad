/-
Arithmetic on two registers, told in numbers.

A byte is a number modulo 256, and what a byte cannot take of a result is
in the flag: a sum has its ninth bit there, a difference the sign that it
borrowed nothing, a shift the bit that falls out at the end. So result and
flag together make up the exact result (`RegOp.Exact`).

The flag is written after VX, so it is what stands in VF if X is F; and
both operands are read before either, so it does no harm if Y is F.
Therefore nothing is asked about X and Y where the flag is concerned, and
of VX only that it is not VF (`Machine.combine_exact`).
-/
import Chip8.Proofs.Effects

namespace Chip8

-- ================================================================ bytes

namespace RegOp

/-- A flag is a byte of the number that it stands for. -/
theorem toNat_toUInt8 (c : Bool) : c.toUInt8.toNat = c.toNat := by
  cases c with
  | false => rfl
  | true => rfl

/-- A sum and its carry. -/
theorem carry_exact (a b : UInt8) :
    (decide (256 ≤ a.toNat + b.toNat)).toUInt8.toNat = (a.toNat + b.toNat) / 256
      ∧ (a + b).toNat + 256 * (decide (256 ≤ a.toNat + b.toNat)).toUInt8.toNat
        = a.toNat + b.toNat := by
  have ha := a.toNat_lt
  have hb := b.toNat_lt
  rw [toNat_toUInt8, UInt8.toNat_add]
  by_cases hcarry : 256 ≤ a.toNat + b.toNat
  · rw [decide_eq_true hcarry, Bool.toNat_true]
    omega
  · rw [decide_eq_false hcarry, Bool.toNat_false]
    omega

/-- A difference and the flag that says that nothing was borrowed. -/
theorem borrow_exact (a b : UInt8) :
    (decide (b ≤ a)).toUInt8.toNat = (if b.toNat ≤ a.toNat then 1 else 0)
      ∧ (a - b).toNat + b.toNat
        = a.toNat + 256 * (1 - (decide (b ≤ a)).toUInt8.toNat) := by
  have ha := a.toNat_lt
  have hb := b.toNat_lt
  rw [toNat_toUInt8, UInt8.toNat_sub]
  by_cases hle : b.toNat ≤ a.toNat
  · rw [decide_eq_true (UInt8.le_iff_toNat_le.mpr hle), if_pos hle, Bool.toNat_true]
    omega
  · rw [decide_eq_false (mt UInt8.le_iff_toNat_le.mp hle), if_neg hle, Bool.toNat_false]
    omega

/-- A byte moved one bit to the right, and the bit that falls out. -/
theorem shiftRight_exact (s : UInt8) :
    (s &&& 1).toNat = s.toNat % 2 ∧ 2 * (s >>> 1).toNat + (s &&& 1).toNat = s.toNat := by
  have hbit : (s &&& 1).toNat = s.toNat % 2 := by
    rw [UInt8.toNat_and]
    exact Nat.and_one_is_mod _
  have hhalf : (s >>> 1).toNat = s.toNat / 2 := by
    rw [UInt8.toNat_shiftRight]
    exact Nat.shiftRight_eq_div_pow _ 1
  rw [hbit, hhalf]
  exact ⟨rfl, Nat.div_add_mod _ 2⟩

/-- A byte moved one bit to the left, and the bit that falls out. -/
theorem shiftLeft_exact (s : UInt8) :
    (s >>> 7).toNat = s.toNat / 128 ∧ (s <<< 1).toNat + 256 * (s >>> 7).toNat = 2 * s.toNat := by
  have hs := s.toNat_lt
  have hbit : (s >>> 7).toNat = s.toNat / 128 := by
    rw [UInt8.toNat_shiftRight]
    exact Nat.shiftRight_eq_div_pow _ 7
  have htwice : (s <<< 1).toNat = s.toNat * 2 % 256 := by
    rw [UInt8.toNat_shiftLeft]
    exact congrArg (· % 256) (Nat.shiftLeft_eq _ 1)
  rw [hbit, htwice]
  omega

/-- The flag that an operation gives, where VX is `a`, VY is `b`, and a
shift works on `s`; zero if it gives none. -/
def flagOf (op : RegOp) (a b s : Nat) : Nat :=
  match op with
  | .add => (a + b) / 256
  | .sub => if b ≤ a then 1 else 0
  | .subFrom => if a ≤ b then 1 else 0
  | .shiftRight => s % 2
  | .shiftLeft => s / 128
  | .move | .or | .and | .xor => 0

/-- A result and a flag together make up the exact result. An operation
without a flag loses nothing in the first place. -/
def Exact (op : RegOp) (a b s result flag : Nat) : Prop :=
  match op with
  | .add => result + 256 * flag = a + b
  | .sub => result + b = a + 256 * (1 - flag)
  | .subFrom => result + a = b + 256 * (1 - flag)
  | .shiftRight => 2 * result + flag = s
  | .shiftLeft => result + 256 * flag = 2 * s
  | .move | .or | .and | .xor => True

/-- An operation that sets the flag gives the exact result in result and
flag together, and the flag is the one that its table names. -/
theorem apply_exact {op : RegOp} (hop : op.givesFlag = true) (a b s : UInt8) :
    ∃ result flag, op.apply a b s = (result, some flag)
      ∧ flag.toNat = op.flagOf a.toNat b.toNat s.toNat
      ∧ op.Exact a.toNat b.toNat s.toNat result.toNat flag.toNat := by
  cases op with
  | add => exact ⟨_, _, rfl, carry_exact a b⟩
  | sub => exact ⟨_, _, rfl, borrow_exact a b⟩
  | subFrom => exact ⟨_, _, rfl, borrow_exact b a⟩
  | shiftRight => exact ⟨_, _, rfl, shiftRight_exact s⟩
  | shiftLeft => exact ⟨_, _, rfl, shiftLeft_exact s⟩
  | move | or | and | xor => cases hop

end RegOp

-- ============================================================ registers

namespace Machine

variable {m : Machine} {x y : Reg}

/-- A register as a number. -/
def value (m : Machine) (x : Reg) : Nat := (m.get x).toNat

theorem value_lt (m : Machine) (x : Reg) : m.value x < 256 := (m.get x).toNat_lt

/-- The flag is in VF, whichever registers are combined; the result is in
VX, unless that is where the flag goes. -/
theorem combine_exact (m : Machine) (op : RegOp) (hop : op.givesFlag = true) (x y : Reg) :
    (m.combine op x y).value Reg.flag
        = op.flagOf (m.value x) (m.value y) (m.shiftOperand x y).toNat
      ∧ (x ≠ Reg.flag → op.Exact (m.value x) (m.value y) (m.shiftOperand x y).toNat
        ((m.combine op x y).value x) ((m.combine op x y).value Reg.flag)) := by
  obtain ⟨result, flag, happly, hflag, hexact⟩ :=
    RegOp.apply_exact hop (m.get x) (m.get y) (m.shiftOperand x y)
  have hcombine : m.combine op x y = ((m.set x result).set Reg.flag flag).next := by
    unfold combine
    rw [happly]
  have hnew : (m.combine op x y).value Reg.flag = flag.toNat := by
    rw [hcombine]
    exact congrArg UInt8.toNat (get_set_self _ Reg.flag flag)
  refine ⟨hnew.trans hflag, fun hx => ?_⟩
  have hresult : (m.combine op x y).value x = result.toNat := by
    rw [hcombine]
    exact congrArg UInt8.toNat ((get_set_of_ne hx _ _).trans (get_set_self _ x result))
  rw [hnew, hresult]
  exact hexact

/-- The operand of a shift is VX or VY, as the configuration says. -/
theorem toNat_shiftOperand (m : Machine) (x y : Reg) :
    (m.shiftOperand x y).toNat
      = if m.config.shiftSource = .vx then m.value x else m.value y := by
  unfold shiftOperand
  cases m.config.shiftSource with
  | vx => rfl
  | vy => rfl

-- ======================================================== there and back

/-- VY is still there for the next operation. -/
theorem combine_value_other (op : RegOp) (hy : y ≠ x) (hflag : y ≠ Reg.flag) :
    (m.combine op x y).value y = m.value y :=
  congrArg UInt8.toNat (combine_get hy fun _ => hflag)

/-- Adding VY to VX and taking it away again gives VX back, whatever was
carried. -/
theorem sub_undoes_add (hy : y ≠ x) (hx : x ≠ Reg.flag) (hflag : y ≠ Reg.flag) :
    ((m.combine .add x y).combine .sub x y).get x = m.get x := by
  have hsum := (m.combine_exact .add rfl x y).2 hx
  have hdifference := ((m.combine .add x y).combine_exact .sub rfl x y).2 hx
  rw [combine_value_other .add hy hflag] at hdifference
  have hold := m.value_lt x
  have hnew := ((m.combine .add x y).combine .sub x y).value_lt x
  -- what is borrowed is what was carried, as both bytes are below 256
  dsimp only [RegOp.Exact] at hsum hdifference
  refine UInt8.toNat_inj.mp ?_
  show ((m.combine .add x y).combine .sub x y).value x = m.value x
  omega

/-- Taking VY from VX and adding it again gives VX back, whatever was
borrowed. -/
theorem add_undoes_sub (hy : y ≠ x) (hx : x ≠ Reg.flag) (hflag : y ≠ Reg.flag) :
    ((m.combine .sub x y).combine .add x y).get x = m.get x := by
  have hdifference := (m.combine_exact .sub rfl x y).2 hx
  have hsum := ((m.combine .sub x y).combine_exact .add rfl x y).2 hx
  rw [combine_value_other .sub hy hflag] at hsum
  have hold := m.value_lt x
  have hnew := ((m.combine .sub x y).combine .add x y).value_lt x
  dsimp only [RegOp.Exact] at hsum hdifference
  refine UInt8.toNat_inj.mp ?_
  show ((m.combine .sub x y).combine .add x y).value x = m.value x
  omega

-- ============================================================ the result

/-- Arithmetic on two registers loses nothing, and the flag wins.

Let VX and VY be `a` and `b`, and `s` the one that a shift works on. Then
VF is the carry of 8XY4; one for 8XY5 and 8XY7 if nothing is borrowed, and
zero if something is; and for 8XY6 and 8XYE the bit that falls out. All
this holds whichever registers X and Y are. If X is not F, then VX and VF
together are the exact result. 8XY0 to 8XY3 leave VF alone unless X is F,
and no operation changes a register other than VX and VF. So, for two
registers neither of which is VF, 8XY5 brings back what VX was before
8XY4, and 8XY4 what it was before 8XY5. -/
theorem arithmetic_is_exact (m : Machine) (x y : Reg) {a b s : Nat} (ha : a = m.value x)
    (hb : b = m.value y) (hs : s = if m.config.shiftSource = .vx then a else b) :
    ∃ after : RegOp → Machine,
      (∀ op, m.exec (.combine op x y) = .ok (after op, []))
      ∧ (after .add).value Reg.flag = (a + b) / 256
      ∧ (after .sub).value Reg.flag = (if b ≤ a then 1 else 0)
      ∧ (after .subFrom).value Reg.flag = (if a ≤ b then 1 else 0)
      ∧ (after .shiftRight).value Reg.flag = s % 2
      ∧ (after .shiftLeft).value Reg.flag = s / 128
      ∧ (x ≠ Reg.flag →
          (after .add).value x + 256 * (after .add).value Reg.flag = a + b
          ∧ (after .sub).value x + b = a + 256 * (1 - (after .sub).value Reg.flag)
          ∧ (after .subFrom).value x + a = b + 256 * (1 - (after .subFrom).value Reg.flag)
          ∧ 2 * (after .shiftRight).value x + (after .shiftRight).value Reg.flag = s
          ∧ (after .shiftLeft).value x + 256 * (after .shiftLeft).value Reg.flag = 2 * s)
      ∧ (∀ op ∈ [RegOp.move, .or, .and, .xor], x ≠ Reg.flag →
          (after op).get Reg.flag = m.get Reg.flag)
      ∧ (∀ op r, r ≠ x → r ≠ Reg.flag → (after op).get r = m.get r)
      ∧ (x ≠ y → x ≠ Reg.flag → y ≠ Reg.flag →
          (∃ m', (after .add).exec (.combine .sub x y) = .ok (m', []) ∧ m'.get x = m.get x)
          ∧ ∃ m', (after .sub).exec (.combine .add x y) = .ok (m', []) ∧ m'.get x = m.get x) := by
  have hshift : (m.shiftOperand x y).toNat = s := by
    rw [toNat_shiftOperand, hs, ha, hb]
  have hexact (op : RegOp) (hop : op.givesFlag = true) := m.combine_exact op hop x y
  rw [hshift, ← ha, ← hb] at hexact
  refine ⟨fun op => m.combine op x y, fun op => rfl, (hexact .add rfl).1,
    (hexact .sub rfl).1, (hexact .subFrom rfl).1,
    (hexact .shiftRight rfl).1, (hexact .shiftLeft rfl).1, ?_, ?_, ?_, ?_⟩
  · intro hx
    exact ⟨(hexact .add rfl).2 hx, (hexact .sub rfl).2 hx,
      (hexact .subFrom rfl).2 hx, (hexact .shiftRight rfl).2 hx,
      (hexact .shiftLeft rfl).2 hx⟩
  · intro op hop hx
    refine combine_get hx.symm fun hflag => ?_
    simp only [List.mem_cons, List.not_mem_nil, or_false] at hop
    rcases hop with rfl | rfl | rfl | rfl
    all_goals cases hflag
  · intro op r hr hflag
    exact combine_get hr fun _ => hflag
  · intro hne hx hy
    exact ⟨⟨_, rfl, sub_undoes_add hne.symm hx hy⟩, ⟨_, rfl, add_undoes_sub hne.symm hx hy⟩⟩

/-- A machine that shifts VY, with V0 at 201 and all other registers at
100. -/
def beforeArithmetic : Machine :=
  { booted #[] with
    config := { shiftSource := .vy }
    registers := Vector.replicate 16 100 }.set Reg.zero 201

/-- VF is added before it takes the carry; it takes the bit that falls out
of V0 and not the shifted byte; and what V1 had to borrow is carried back
again. -/
theorem flag_is_read_then_wins :
    (∃ m', beforeArithmetic.exec (.combine .add Reg.zero Reg.flag) = .ok (m', [])
        ∧ m'.value Reg.zero = 45 ∧ m'.value Reg.flag = 1)
      ∧ (∃ m', beforeArithmetic.exec (.combine .shiftRight Reg.flag Reg.zero) = .ok (m', [])
        ∧ m'.value Reg.flag = 1)
      ∧ ∃ m' m'', beforeArithmetic.exec (.combine .sub 1 Reg.zero) = .ok (m', [])
        ∧ m'.value 1 = 155 ∧ m'.value Reg.flag = 0
        ∧ m'.exec (.combine .add 1 Reg.zero) = .ok (m'', []) ∧ m''.get 1 = 100 := by
  have hzero : beforeArithmetic.value Reg.zero = 201 := rfl
  have hflag : beforeArithmetic.value Reg.flag = 100 := rfl
  have hone : beforeArithmetic.value 1 = 100 := rfl
  obtain ⟨added, hadded, hcarry, -, -, -, -, hsum, -⟩ :=
    arithmetic_is_exact beforeArithmetic Reg.zero Reg.flag hzero.symm hflag.symm rfl
  obtain ⟨shifted, hshifted, -, -, -, hbit, -⟩ :=
    arithmetic_is_exact beforeArithmetic Reg.flag Reg.zero hflag.symm hzero.symm rfl
  obtain ⟨taken, htaken, -, hborrow, -, -, -, hdifference, -, -, hback⟩ :=
    arithmetic_is_exact beforeArithmetic 1 Reg.zero hone.symm hzero.symm rfl
  obtain ⟨hsum, -⟩ := hsum (by decide)
  obtain ⟨-, hdifference, -⟩ := hdifference (by decide)
  obtain ⟨-, m'', hexec, hget⟩ := hback (by decide) (by decide) (by decide)
  rw [hcarry] at hsum
  rw [hborrow] at hdifference
  refine ⟨⟨_, hadded .add, by omega, hcarry⟩, ⟨_, hshifted .shiftRight, hbit⟩,
    _, m'', htaken .sub, by omega, hborrow, hexec, hget.trans rfl⟩

end Machine

end Chip8
