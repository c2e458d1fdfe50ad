/-
What each instruction does. `exec` takes a machine and an instruction
that has been decoded, and gives the machine as the instruction leaves
it together with the events that it caused.

An instruction that cannot be run gives up where it finds out. Beside
the fault it gives back the machine as it has made it by then, and what
it has reported by then; nothing is undone for it.

Where an instruction writes a register and the flag register, the flag
is written last, so the flag is what stands in VF when they are the same.
-/
import Chip8.Machine.Basic

namespace Chip8

/-- The new VX, and the new VF if there is one, of an operation on `a`,
the value of VX, and `b`, the value of VY. The shifts work on `s`. -/
def RegOp.apply (op : RegOp) (a b s : UInt8) : UInt8 × Option UInt8 :=
  match op with
  | .move => (b, none)
  | .or => (a ||| b, none)
  | .and => (a &&& b, none)
  | .xor => (a ^^^ b, none)
  | .add => (a + b, some (decide (256 ≤ a.toNat + b.toNat)).toUInt8)
  | .sub => (a - b, some (decide (b ≤ a)).toUInt8)
  | .shiftRight => (s >>> 1, some (s &&& 1))
  | .subFrom => (b - a, some (decide (a ≤ b)).toUInt8)
  | .shiftLeft => (s <<< 1, some (s >>> 7))

/-- What an instruction that gave up comes to: the fault, the state as far
as the instruction had got with it, and the events until then. -/
structure Faulted (σ : Type) where
  fault : Fault
  state : σ
  events : List Event

/-- What an instruction comes to, on a machine or on something else that
runs instructions. -/
abbrev Ran (σ : Type) := Except (Faulted σ) (σ × List Event)

namespace Machine

/-- The register that a shift reads. -/
def shiftOperand (m : Machine) (x y : Reg) : UInt8 :=
  match m.config.shiftSource with
  | .vx => m.get x
  | .vy => m.get y

/-- Combine two registers, and go on. -/
def combine (m : Machine) (op : RegOp) (x y : Reg) : Machine :=
  match op.apply (m.get x) (m.get y) (m.shiftOperand x y) with
  | (value, none) => (m.set x value).next
  | (value, some flag) => ((m.set x value).set Reg.flag flag).next

/-- Draw the rows stored at I, and go on. -/
def draw (m : Machine) (x y : Reg) (rows : Nat) : Machine :=
  let (display, hit) := m.display.draw (m.get x) (m.get y) (m.memory.readMany m.index rows)
  ({ m with display := display }.setFlag hit).next

/-- Wait for a key. The first time a wait begins; from then on the
instruction is run over and over until a key ends the wait. -/
def awaitKey (m : Machine) (x : Reg) : Machine × List Event :=
  if m.keypad.isWaiting then
    match m.keypad.poll with
    | (some (y, key), keypad) =>
      (({ m with keypad := keypad }.set y (UInt8.ofNat key.val)).next, [.keyPressed y key])
    | (none, keypad) => ({ m with keypad := keypad }, [])
  else ({ m with keypad := m.keypad.await x }, [.awaitingKey x])

/-- Add a register to I, and go on. -/
def addIndex (m : Machine) (x : Reg) : Machine :=
  let sum := m.index.toNat + (m.get x).toNat
  let m' := { m with index := UInt16.ofNat sum }
  (if m.config.flagsIndexOverflow then m'.setFlag (decide (4096 ≤ sum)) else m').next

/-- The three decimal digits of a byte. -/
def decimalDigits (value : UInt8) : List UInt8 := [value / 100, value / 10 % 10, value % 10]

def storeBytes (m : Machine) (bytes : List UInt8) : Machine × List Event :=
  let (memory, refused) := m.memory.store m.index bytes
  ({ m with memory := memory }, refused.map .fontKept)

/-- Load the registers up to VX from I. -/
def loadRegisters (m : Machine) (x : Reg) : Machine :=
  { m with registers := Vector.ofFn fun i =>
      if i ≤ x then m.memory.read (m.index + UInt16.ofNat i.val) else m.get i }

/-- Leave I behind the registers up to VX, if the machine is configured
to. -/
def advanceIndex (m : Machine) (x : Reg) : Machine :=
  if m.config.advancesIndex then { m with index := m.index + UInt16.ofNat (x.val + 1) } else m

/-- Run an instruction. -/
def exec (m : Machine) : Instr → Ran Machine
  | .jump t => .ok ({ m with pc := t.word }, [])
  | .jumpPast t => .ok ({ m with pc := t.word + (m.get Reg.zero).toUInt16 }, [])
  | .call t =>
    if m.stack.length < stackDepth then
      .ok ({ m with pc := t.word, stack := (m.pc + 2) :: m.stack },
        [.called t.word (m.stack.length + 1)])
    else .error ⟨.stackOverflow m.pc, m, []⟩
  | .ret =>
    match m.stack with
    | [] => .error ⟨.stackUnderflow m.pc, m, []⟩
    | target :: rest => .ok ({ m with pc := target, stack := rest }, [.returned target rest.length])
  | .skipIfByte x byte => .ok (m.skipIf (m.get x == byte), [])
  | .skipUnlessByte x byte => .ok (m.skipIf (m.get x != byte), [])
  | .skipIfSame x y => .ok (m.skipIf (m.get x == m.get y), [])
  | .skipUnlessSame x y => .ok (m.skipIf (m.get x != m.get y), [])
  | .skipIfKey x => .ok (m.skipIf (m.keypad.isDown ((m.get x).toNat % 16)), [])
  | .skipUnlessKey x => .ok (m.skipIf (!m.keypad.isDown ((m.get x).toNat % 16)), [])
  | .setByte x byte => .ok ((m.set x byte).next, [])
  | .addByte x byte => .ok ((m.set x (m.get x + byte)).next, [])
  | .combine op x y => .ok (m.combine op x y, [])
  | .random x mask =>
    let (byte, random) := m.random.next
    .ok (({ m with random := random }.set x (byte &&& mask)).next, [])
  | .setIndex t => .ok ({ m with index := t.word }.next, [])
  | .addIndex x => .ok (m.addIndex x, [])
  | .glyph x => .ok ({ m with index := Font.address (m.get x) }.next, [])
  | .decimal x =>
    let (m', events) := m.storeBytes (decimalDigits (m.get x))
    .ok (m'.next, events)
  | .store x =>
    let (m', events) := m.storeBytes (m.upTo x)
    .ok ((m'.advanceIndex x).next, events)
  | .load x => .ok (((m.loadRegisters x).advanceIndex x).next, [])
  | .clear => .ok ({ m with display := Display.blank }.next, [])
  | .draw x y rows => .ok (m.draw x y rows.val, [])
  | .awaitKey x => .ok (m.awaitKey x)
  | .getDelay x => .ok ((m.set x m.timers.delay).next, [])
  | .setDelay x => .ok ({ m with timers := { m.timers with delay := m.get x } }.next, [])
  | .setSound x => .ok ({ m with timers := { m.timers with sound := m.get x } }.next, [])

end Machine

end Chip8
