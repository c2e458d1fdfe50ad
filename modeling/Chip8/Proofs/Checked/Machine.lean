/-
The machine in storage that checks what is asked of it.

A `Raw` holds arrays, and numbers of which nothing is known: how many
slots for return addresses are in use, and which register waits for a
key. It runs opcodes, not instructions. Whatever it does with an array or
a number goes through the checks of `Storage.lean`, and `none` is the
answer if one of them fails: the call breaks off.

What an unchecked machine rules out by its types has to be found out here
step by step, so the operations are written as steps: the rows of a
sprite are collected and then drawn bit by bit, registers are stored and
loaded one by one, the timers tick as often as the clock has counted.
That none of the steps breaks off is shown in `Exec.lean` for the
instructions and in `Safety.lean` for the calls.
-/
import Chip8.Proofs.Board
import Chip8.Proofs.Checked.Opcode
import Chip8.Proofs.Checked.Storage
import Chip8.Proofs.Memory

namespace Chip8

/-- What an instruction comes to, without what it reports. -/
def Ran.unreported {σ : Type} : Ran σ → Except (Fault × σ) σ
  | .ok out => .ok out.1
  | .error g => .error (g.fault, g.state)

/-- The machine in plain storage. -/
structure Raw where
  config : Config
  memory : Vector UInt8 4096
  registers : Vector UInt8 16
  index : UInt16
  pc : UInt16
  slots : Vector UInt16 stackDepth
  /-- How many of the slots are in use. -/
  used : Nat
  timers : Timers
  clock : Clock
  lit : Vector Bool 2048
  down : Keys
  seen : Keys
  /-- The register that waits for a key, if any does. -/
  asker : Option UInt8
  stopped : Bool
  random : Random.Generator

namespace Raw

open Checked

-- ======================================================== single parts

def get (r : Raw) (x : UInt8) : Option UInt8 := r.registers[x.toNat]?

def set (r : Raw) (x value : UInt8) : Option Raw := do
  return { r with registers := ← write r.registers x.toNat value }

def next (r : Raw) : Raw := { r with pc := r.pc + 2 }

def skipIf (r : Raw) (condition : Bool) : Raw :=
  { r with pc := r.pc + if condition then 4 else 2 }

/-- The word at the program counter, high byte first. -/
def fetch (r : Raw) : Option UInt16 := do
  let high ← readByte r.memory r.pc
  let low ← readByte r.memory (r.pc + 1)
  return (high.toUInt16 <<< 8) ||| low.toUInt16

-- ======================================================== instructions

def ret (r : Raw) : Option (Except (Fault × Raw) Raw) :=
  if r.used = 0 then some (.error (.stackUnderflow r.pc, r))
  else do
    let used ← difference r.used 1
    let target ← r.slots[used]?
    return .ok { r with pc := target, used := used }

def call (r : Raw) (target : UInt16) : Option (Except (Fault × Raw) Raw) :=
  if r.used = stackDepth then some (.error (.stackOverflow r.pc, r))
  else do
    let slots ← write r.slots r.used (r.pc + 2)
    let used ← sum sizeBits r.used 1
    return .ok { r with pc := target, slots := slots, used := used }

def shiftOperand (r : Raw) (x y : UInt8) : Option UInt8 :=
  match r.config.shiftSource with
  | .vx => r.get x
  | .vy => r.get y

def combine (r : Raw) (op : RegOp) (x y : UInt8) : Option Raw := do
  match op.apply (← r.get x) (← r.get y) (← r.shiftOperand x y) with
  | (value, none) => return (← r.set x value).next
  | (value, some flag) => return (← (← r.set x value).set 0xF flag).next

def draw (r : Raw) (x y rows : UInt8) : Option Raw := do
  let bytes ← (List.range rows.toNat).mapM fun i => readByte r.memory (r.index + UInt16.ofNat i)
  let (lit, hit) ← drawSprite r.lit (← r.get x) (← r.get y) bytes
  return (← { r with lit := lit }.set 0xF hit.toUInt8).next

/-- Whether the key in a register is down. -/
def keyIsDown (r : Raw) (x : UInt8) : Option Bool := do
  let key := (← r.get x) &&& 0xF
  return r.down[key.toNat]?.getD false

/-- Look at the keys on behalf of the register that waits, if any does. -/
def poll (r : Raw) : Option (Option (UInt8 × UInt8) × Raw) :=
  match r.asker with
  | none => some (none, r)
  | some x => do
    match ← pressed r.seen r.down with
    | some key => return (some (x, UInt8.ofNat key), { r with asker := none })
    | none => return (none, { r with seen := r.down })

def awaitKey (r : Raw) (x : UInt8) : Option Raw :=
  if r.asker.isSome then do
    match ← r.poll with
    | (some (y, key), r) => return (← r.set y key).next
    | (none, r) => return r
  else some { r with seen := r.down, asker := some x }

def addIndex (r : Raw) (x : UInt8) : Option Raw := do
  let value ← r.get x
  let wide ← sum 32 r.index.toNat value.toNat
  let moved := { r with index := r.index + value.toUInt16 }
  if r.config.flagsIndexOverflow then
    return (← moved.set 0xF (decide (0xFFF < wide)).toUInt8).next
  else return moved.next

def glyph (r : Raw) (x : UInt8) : Option Raw := do
  let digit := (← r.get x) &&& 0xF
  let start ← sum 16 0 (← product 16 digit.toNat Font.glyphRows)
  return { r with index := UInt16.ofNat start }.next

def decimal (r : Raw) (x : UInt8) : Option Raw := do
  let value ← r.get x
  let cells ← writeByte r.memory r.index (value / 100)
  let cells ← writeByte cells (r.index + 1) (value / 10 % 10)
  let cells ← writeByte cells (r.index + 2) (value % 10)
  return { r with memory := cells }.next

/-- Leave I behind the registers up to VX, if configured to. -/
def advanceIndex (r : Raw) (x : UInt8) : Option Raw :=
  if r.config.advancesIndex then do
    let step ← sum 16 x.toNat 1
    return { r with index := r.index + UInt16.ofNat step }
  else some r

def store (r : Raw) (x : UInt8) : Option Raw := do
  let cells ← (List.range (x.toNat + 1)).foldlM
    (fun cells i => do writeByte cells (r.index + UInt16.ofNat i) (← r.registers[i]?)) r.memory
  return (← { r with memory := cells }.advanceIndex x).next

def load (r : Raw) (x : UInt8) : Option Raw := do
  let registers ← (List.range (x.toNat + 1)).foldlM
    (fun registers i => do
      write registers i (← readByte r.memory (r.index + UInt16.ofNat i))) r.registers
  return (← { r with registers := registers }.advanceIndex x).next

/-- Run an opcode. One that gives up gives back the storage as it has made
it by then. -/
def exec (r : Raw) : Opcode → Option (Except (Fault × Raw) Raw)
  | .jump t => return .ok { r with pc := t }
  | .jumpPast t => do return .ok { r with pc := t + (← r.get 0).toUInt16 }
  | .call t => r.call t
  | .ret => r.ret
  | .skipIfByte x byte => do return .ok (r.skipIf ((← r.get x) == byte))
  | .skipUnlessByte x byte => do return .ok (r.skipIf ((← r.get x) != byte))
  | .skipIfSame x y => do return .ok (r.skipIf ((← r.get x) == (← r.get y)))
  | .skipUnlessSame x y => do return .ok (r.skipIf ((← r.get x) != (← r.get y)))
  | .skipIfKey x => do return .ok (r.skipIf (← r.keyIsDown x))
  | .skipUnlessKey x => do return .ok (r.skipIf !(← r.keyIsDown x))
  | .setByte x byte => do return .ok (← r.set x byte).next
  | .addByte x byte => do return .ok (← r.set x ((← r.get x) + byte)).next
  | .combine op x y => do return .ok (← r.combine op x y)
  | .random x mask => do
    let (byte, random) := r.random.next
    return .ok (← { r with random := random }.set x (byte &&& mask)).next
  | .setIndex t => return .ok { r with index := t }.next
  | .addIndex x => do return .ok (← r.addIndex x)
  | .glyph x => do return .ok (← r.glyph x)
  | .decimal x => do return .ok (← r.decimal x)
  | .store x => do return .ok (← r.store x)
  | .load x => do return .ok (← r.load x)
  | .clear => return .ok { r with lit := Vector.replicate 2048 false }.next
  | .draw x y rows => do return .ok (← r.draw x y rows)
  | .awaitKey x => do return .ok (← r.awaitKey x)
  | .getDelay x => do return .ok (← r.set x r.timers.delay).next
  | .setDelay x => do return .ok { r with timers := { r.timers with delay := ← r.get x } }.next
  | .setSound x => do return .ok { r with timers := { r.timers with sound := ← r.get x } }.next

-- =============================================================== calls

/-- What a call answers, with an instruction as it was decoded. -/
inductive Reply where
  | done
  | ran (op : Opcode)
  | idle
  | failed (error : Error)

def cycle (r : Raw) : Option (Reply × Raw) :=
  if r.stopped then some (.idle, r)
  else do
    let word ← r.fetch
    match Opcode.decode? word with
    | none =>
      return (.failed (.fault (.unknownInstruction word r.pc)), { r with stopped := true })
    | some op =>
      match ← r.exec op with
      | .ok r => return (.ran op, r)
      | .error (fault, r) => return (.failed (.fault fault), { r with stopped := true })

/-- Storage as it is before a program is loaded. -/
def fresh (config : Config) (random : Random.Generator) (now : Instant) : Option Raw := do
  return {
    config := config
    memory := ← blankCells
    registers := Vector.replicate 16 0
    index := 0
    pc := UInt16.ofNat Memory.programStart
    slots := Vector.replicate stackDepth 0
    used := 0
    timers := Timers.zero
    clock := ⟨config.timerInterval.toNat * 1000000, now⟩
    lit := Vector.replicate 2048 false
    down := Vector.replicate 16 false
    seen := Vector.replicate 16 false
    asker := none
    stopped := true
    random := random }

def new (config : Config) (entropy : Random.ChaCha.Key) (now : Instant) : Option Raw :=
  fresh config (.ofKey ((config.seed.map Random.keyOfSeed).getD entropy)) now

def loadProgram (r : Raw) (now : Instant) (program : Array UInt8) : Option (Reply × Raw) :=
  if Memory.capacity < program.size then some (.failed (.tooLarge program.size), r)
  else do
    let wiped ← fresh r.config r.random now
    return (.done, { wiped with memory := ← loadCells wiped.memory program, stopped := false })

def tick (r : Raw) : Option Raw := do
  let delay ← lower r.timers.delay r.config.timerStep
  let sound ← lower r.timers.sound r.config.timerStep
  return { r with timers := ⟨delay, sound⟩ }

/-- Let the timers tick as often as is due, one tick after the other. -/
def settleClock (r : Raw) (horizon now : Instant) : Option Raw := do
  let (ticks, clock) ← settle horizon r.clock now
  (List.range ticks).foldlM (fun r _ => r.tick) { r with clock := clock }

def setKey (r : Raw) (code : UInt8) (isDown : Bool) : Reply × Raw :=
  match write r.down code.toNat isDown with
  | some down => (.done, { r with down := down })
  | none => (.failed (.invalidKey code), r)

def setKeys (r : Raw) (keys : List Key) : Option Raw := do
  return { r with down := ← follow r.down (← held keys) }

/-- Make a call at an instant. -/
def perform (r : Raw) (horizon now : Instant) : Action → Option (Reply × Raw)
  | .load program => r.loadProgram now program
  | .loadFile path (.error problem) => some (.failed (.unreadable path problem), r)
  | .loadFile _ (.ok program) => r.loadProgram now program
  | .reset => do return (.done, ← fresh r.config r.random now)
  | .stop => some (.done, { r with stopped := true })
  | .cycle => r.cycle
  | .tick => do return (.done, ← r.tick)
  | .settleClock => do return (.done, ← r.settleClock horizon now)
  | .setDelay value => some (.done, { r with timers := { r.timers with delay := value } })
  | .setSound value => some (.done, { r with timers := { r.timers with sound := value } })
  | .setKey code isDown => some (r.setKey code isDown)
  | .setKeys keys => do return (.done, ← r.setKeys keys)

/-- Make the calls of a script one after the other, and list what they
answer. -/
def run (horizon : Instant) (r : Raw) : Script → Option (List Reply × Raw)
  | [] => some ([], r)
  | (now, a) :: rest => do
    let (reply, r) ← r.perform horizon now a
    let (replies, r) ← r.run horizon rest
    return (reply :: replies, r)

-- =============================================================== views

def snapshot (r : Raw) : Option Snapshot := do
  return {
    registers := r.registers
    index := r.index
    pc := r.pc
    stack := ← slice r.slots 0 r.used
    timers := r.timers
    memory := ⟨r.memory⟩
    display := ⟨r.lit⟩
    keys := r.down
    isWaiting := r.asker.isSome
    stopped := r.stopped }

/-- Whether the pixel at `(x, y)` is lit; both coordinates wrap. -/
def isLit (r : Raw) (x y : UInt8) : Option Bool := do r.lit[← pixelIndex x y]?

end Raw

/-- Whether the pixel at `(x, y)` is lit in a copy of what can be seen.
Outside the display nothing is. -/
def Checked.pixel (s : Snapshot) (x y : Nat) : Option Bool :=
  if 64 ≤ x ∨ 32 ≤ y then some false
  else do
    let above ← product sizeBits y 64
    s.display.lit[← sum sizeBits x above]?

end Chip8
