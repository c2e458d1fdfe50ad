/-
What calls leave alone. An invariant of the machine speaks of two or
three of its components, and most calls touch none of them; this file
says once, for every instruction and for every call of a host, which
components can change, so that the proof of an invariant has only the
calls left that matter to it.

# Instructions

`Footprint i m m'` is the frame of an instruction: where `i` leads from
`m` to `m'`, each component is the old one unless `i` is one of the few
that write it. Memory is exact rather than framed: it is the old memory
with the bytes that `i` stores (`Instr.stored`, none for most) put at I.
`exec_footprint` goes through the instructions; nothing else does.
Registers are left out, as what FX0A writes is up to the keypad.

# The host

`HostFrame m m'` is the frame of the calls that a host makes between two
cycles. It keeps everything that a program can compute with, and the
wait for a key if there is one; only the timers, the clock and the keys
that are down may differ.

# Invariants

With these frames, what holds of every reachable machine comes down to
the five fields of `Invariant`, of which most are one line for most
properties. The induction over the calls is in `Invariant.of_reachable`.
-/
import Chip8.Proofs.Script

namespace Chip8

open Machine

-- ========================================================== vocabulary

/-- The bytes that an instruction stores at I. -/
def Instr.stored (m : Machine) : Instr → List UInt8
  | .decimal x => decimalDigits (m.get x)
  | .store x => m.upTo x
  | _ => []

/-- Whether an instruction can change I. -/
def Instr.movesIndex (config : Config) : Instr → Bool
  | .setIndex _ | .addIndex _ | .glyph _ => true
  | .store _ | .load _ => config.advancesIndex
  | _ => false

/-- What an instruction that leads from `m` to `m'` leaves alone. Most
fields hold by computation for most instructions, so that is what a field
that is left out stands for. -/
structure Footprint (i : Instr) (m m' : Machine) : Prop where
  config : m'.config = m.config := by rfl
  clock : m'.clock = m.clock := by rfl
  stopped : m'.stopped = m.stopped := by rfl
  memory : m'.memory = (m.memory.store m.index (i.stored m)).1 := by rfl
  index : i.movesIndex m.config = false → m'.index = m.index := by exact fun _ => rfl
  stack : (∀ t, i ≠ .call t) → i ≠ .ret → m'.stack = m.stack := by exact fun _ _ => rfl
  display : i.isDisplay = false → m'.display = m.display := by exact fun _ => rfl
  delay : (∀ x, i ≠ .setDelay x) → m'.timers.delay = m.timers.delay := by exact fun _ => rfl
  sound : (∀ x, i ≠ .setSound x) → m'.timers.sound = m.timers.sound := by exact fun _ => rfl
  down : m'.keypad.down = m.keypad.down := by rfl
  wait : (∀ x, i ≠ .awaitKey x) → m'.keypad.wait = m.keypad.wait := by exact fun _ => rfl
  random : (∀ x mask, i ≠ .random x mask) → m'.random = m.random := by exact fun _ => rfl

/-- What a host leaves alone between two cycles. -/
structure HostFrame (m m' : Machine) : Prop where
  config : m'.config = m.config
  memory : m'.memory = m.memory
  registers : m'.registers = m.registers
  index : m'.index = m.index
  pc : m'.pc = m.pc
  stack : m'.stack = m.stack
  display : m'.display = m.display
  wait : m'.keypad.wait = m.keypad.wait
  stopped : m'.stopped = m.stopped
  random : m'.random = m.random

/-- A host that has done nothing has stayed within its frame. -/
theorem HostFrame.refl (m : Machine) : HostFrame m m :=
  ⟨rfl, rfl, rfl, rfl, rfl, rfl, rfl, rfl, rfl, rfl⟩

/-- A host may touch its part of a machine any number of times. -/
theorem HostFrame.trans {m m' m'' : Machine} (h : HostFrame m m') (h' : HostFrame m' m'') :
    HostFrame m m'' where
  config := h'.config.trans h.config
  memory := h'.memory.trans h.memory
  registers := h'.registers.trans h.registers
  index := h'.index.trans h.index
  pc := h'.pc.trans h.pc
  stack := h'.stack.trans h.stack
  display := h'.display.trans h.display
  wait := h'.wait.trans h.wait
  stopped := h'.stopped.trans h.stopped
  random := h'.random.trans h.random

/-- The frame does not depend on which wait is on. -/
theorem HostFrame.with_wait {m m' : Machine} (h : HostFrame m m') (down down' : Keys)
    (wait : Option (KeyWait Reg)) :
    HostFrame { m with keypad := ⟨down, wait⟩ } { m' with keypad := ⟨down', wait⟩ } :=
  { h with wait := rfl }

namespace Machine

variable {m m' : Machine}

-- ======================================================== instructions

private theorem combine_frame (m : Machine) (op : RegOp) (x y : Reg) :
    m.combine op x y
      = { m with registers := (m.combine op x y).registers, pc := m.pc + 2 } := by
  unfold combine
  split <;> rfl

private theorem addIndex_frame (m : Machine) (x : Reg) :
    m.addIndex x
      = { m with
          registers := (m.addIndex x).registers
          index := (m.addIndex x).index
          pc := m.pc + 2 } := by
  unfold addIndex
  dsimp only
  split <;> rfl

/-- I is left behind what was stored or loaded only where the machine is
configured so. -/
private theorem advanceIndex_frame (m : Machine) (x : Reg) :
    m.advanceIndex x = { m with index := (m.advanceIndex x).index }
      ∧ (m.config.advancesIndex = false → (m.advanceIndex x).index = m.index) := by
  unfold advanceIndex
  cases h : m.config.advancesIndex with
  | true => exact ⟨rfl, fun hn => nomatch hn⟩
  | false => exact ⟨rfl, fun _ => rfl⟩

/-- Waiting for a key touches a register, the wait and the program
counter; in particular it changes no key. -/
private theorem awaitKey_frame (m : Machine) (x : Reg) :
    (m.awaitKey x).1
      = { m with
          registers := (m.awaitKey x).1.registers
          pc := (m.awaitKey x).1.pc
          keypad := ⟨m.keypad.down, (m.awaitKey x).1.keypad.wait⟩ } := by
  have hpoll : m.keypad.poll.2 = ⟨m.keypad.down, m.keypad.poll.2.wait⟩ := by
    unfold Keypad.poll
    split
    · rfl
    · split <;> rfl
  unfold awaitKey
  split
  · split
    · next heq =>
      rw [heq] at hpoll
      dsimp only at hpoll ⊢
      rw [hpoll]
      rfl
    · next heq =>
      rw [heq] at hpoll
      dsimp only at hpoll ⊢
      rw [hpoll]
  · rfl

/-- What an instruction that was run left alone. -/
theorem exec_footprint {i : Instr} {events : List Event}
    (h : m.exec i = .ok (m', events)) : Footprint i m m' := by
  cases i with
  | call t =>
      simp only [exec] at h
      split at h
      case isFalse => cases h
      case isTrue =>
        cases h
        exact { stack := fun ht => absurd rfl (ht t) }
  | ret =>
      simp only [exec] at h
      split at h
      next => cases h
      next =>
        cases h
        exact { stack := fun _ hr => absurd rfl hr }
  | combine op x y =>
      cases h
      rw [combine_frame]
      exact {}
  | addIndex x =>
      cases h
      rw [addIndex_frame]
      exact { index := fun hnone => by cases hnone }
  | setIndex t =>
      cases h
      exact { index := fun hnone => by cases hnone }
  | glyph x =>
      cases h
      exact { index := fun hnone => by cases hnone }
  | store x =>
      cases h
      obtain ⟨hframe, hindex⟩ := advanceIndex_frame
        { m with memory := (m.memory.store m.index (m.upTo x)).1 } x
      rw [hframe]
      exact { index := hindex }
  | load x =>
      cases h
      have hload : m.loadRegisters x
          = { m with registers := (m.loadRegisters x).registers } := rfl
      generalize (m.loadRegisters x).registers = registers at hload
      rw [hload]
      obtain ⟨hframe, hindex⟩ := advanceIndex_frame { m with registers := registers } x
      rw [hframe]
      exact { index := hindex }
  | clear =>
      cases h
      exact { display := fun hnone => by cases hnone }
  | draw x y rows =>
      cases h
      exact { display := fun hnone => by cases hnone }
  | random x mask =>
      cases h
      exact { random := fun hr => absurd rfl (hr x mask) }
  | setDelay x =>
      cases h
      exact { delay := fun hd => absurd rfl (hd x) }
  | setSound x =>
      cases h
      exact { sound := fun hs => absurd rfl (hs x) }
  | awaitKey x =>
      have hm : m' = (m.awaitKey x).1 := by
        simp only [exec, Except.ok.injEq] at h
        rw [h]
      rw [hm, awaitKey_frame]
      exact { wait := fun hw => absurd rfl (hw x) }
  | _ =>
      cases h
      exact {}

-- ============================================================= the host

/-- Timers, clock and keys are the host's part of a machine. -/
private theorem hostFrame_of_outside (m : Machine) (timers : Timers) (clock : Clock)
    (down : Keys) :
    HostFrame m { m with
      timers := timers, clock := clock, keypad := { m.keypad with down := down } } :=
  ⟨rfl, rfl, rfl, rfl, rfl, rfl, rfl, rfl, rfl, rfl⟩

/-- A host that neither loads, resets nor stops keeps to its frame
between two cycles. -/
theorem perform_hostFrame {a : Action} (hr : a.isRoutine = true) (hc : a ≠ .cycle)
    (m : Machine) (now : Instant) : HostFrame m (m.perform now a).machine := by
  cases a with
  | cycle => exact absurd rfl hc
  | setKey code isDown =>
      simp only [perform, setKey]
      split
      · exact hostFrame_of_outside m _ _ _
      · exact HostFrame.refl m
  | load | loadFile | reset | stop => cases hr
  | _ => exact hostFrame_of_outside m _ _ _

private theorem fresh_config (config : Config) (random : Random.Generator) (now : Instant) :
    (fresh config random now).config = config := rfl

private theorem loaded_config (config : Config) (random : Random.Generator) (now : Instant)
    (program : Array UInt8) : (loaded config random now program).config = config := rfl

/-- A machine keeps its configuration for life. -/
theorem perform_config (m : Machine) (now : Instant) (a : Action) :
    (m.perform now a).machine.config = m.config := by
  rcases a.kind_cases with hr | rfl | rfl | ⟨hr, hc⟩
  · rcases perform_of_restarts hr m now with hm | hm | ⟨program, hm⟩
    · rw [hm]
    · rw [hm, fresh_config]
    · rw [hm, loaded_config]
  · rfl
  · rw [perform_cycle]
    rcases m.cycle_stops_or_runs with hc | ⟨i, events, -, hexec, -⟩
    · rw [hc]
    · exact (exec_footprint hexec).config
  · exact (perform_hostFrame hr hc m now).config

-- ========================================================== invariants

/-- What it takes for a property to hold of all machines that a host can
come by: it holds where a machine starts, and none of the ways to go on
breaks it. -/
structure Invariant (P : Machine → Prop) : Prop where
  fresh : ∀ config random now, P (Machine.fresh config random now)
  loaded : ∀ config random now program, P (Machine.loaded config random now program)
  stop : ∀ {m : Machine}, P m → P { m with stopped := true }
  exec : ∀ {m m' : Machine} {i : Instr} {events : List Event}, P m →
    Instr.decode? m.fetch = some i → m.exec i = .ok (m', events) → P m'
  host : ∀ {m m' : Machine}, P m → HostFrame m m' → P m'

variable {P : Machine → Prop}

/-- What holds of a machine newly built or loaded, and is kept by every
instruction, by a stop and by the host's part, is kept by every call. -/
theorem Invariant.perform (h : Invariant P) (hm : P m) (now : Instant) (a : Action) :
    P (m.perform now a).machine := by
  rcases a.kind_cases with hr | rfl | rfl | ⟨hr, hc⟩
  · rcases perform_of_restarts hr m now with hm' | hm' | ⟨program, hm'⟩
    · rw [hm']
      exact hm
    · rw [hm']
      exact h.fresh _ _ _
    · rw [hm']
      exact h.loaded _ _ _ _
  · rw [perform_stop]
    exact h.stop hm
  · rw [perform_cycle]
    rcases m.cycle_stops_or_runs with hc | ⟨i, events, hdec, hexec, -⟩
    · rw [hc]
      exact h.stop hm
    · exact h.exec hm hdec hexec
  · exact h.host hm (perform_hostFrame hr hc m now)

/-- An invariant holds of all machines that a host can come by. -/
theorem Invariant.of_reachable (h : Invariant P) (hm : m.Reachable) : P m := by
  induction hm with
  | new config entropy now => exact h.fresh _ _ _
  | perform now a _ ih => exact h.perform ih now a

-- ============================================================ the fetch

/-- The word that is about to be run depends on memory and pc alone. -/
theorem fetch_congr (hmem : m'.memory = m.memory) (hpc : m'.pc = m.pc) :
    m'.fetch = m.fetch := by
  unfold fetch
  rw [hmem, hpc]

/-- The instruction word, high byte first. -/
theorem fetch_toNat (m : Machine) :
    m.fetch.toNat
      = 256 * (m.memory.cells.get (Cell.ofAddress m.pc)).toNat
        + (m.memory.cells.get (Cell.ofAddress (m.pc + 1))).toNat := by
  have hhigh := (m.memory.cells.get (Cell.ofAddress m.pc)).toNat_lt
  have hlow := (m.memory.cells.get (Cell.ofAddress (m.pc + 1))).toNat_lt
  show (UInt16.ofNat ((m.memory.cells.get (Cell.ofAddress m.pc)).toNat * 256
    + (m.memory.cells.get (Cell.ofAddress (m.pc + 1))).toNat)).toNat = _
  rw [UInt16.toNat_ofNat_of_lt' (by rw [show UInt16.size = 65536 from rfl]; omega)]
  omega

end Machine

end Chip8
