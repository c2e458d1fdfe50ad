/-
A board: the machine as it lies in storage of a fixed size.

A `Machine` keeps nothing that no longer counts: its stack lists the open
calls, and the keys as last looked at are part of the wait that looked.
Storage is not so tidy. A board has sixteen slots for return addresses
and a number that says how many are in use; a return only lowers that
number, and the address stays in its slot. It has one latch for the keys
as last looked at, which nobody clears when a wait is over. Restarting is
the only thing that wipes either.

# What a board holds

`Board.machine` reads the machine off a board: the slots in use, the
newest first, and the latch if a wait is on. It forgets the rest, so many
boards hold the same machine.

# What a board does

The instructions and calls that work on the slots or on the latch are
given here in terms of these; all others work on what a board has in
common with the machine that it holds, and leave slots and latch alone
(`Board.adopt`). A board answers every call as the machine that it holds
does, and holds afterwards what that machine has become
(`Board.perform_outcome`): a slot or a latch is read only where the
machine has kept what is in it.
-/
import Chip8.Proofs.CallStack

namespace Chip8

-- ===================================================== return addresses

/-- Slots for return addresses, of which so many are in use, from the
first on. -/
structure CallSlots where
  slots : Vector UInt16 stackDepth
  used : Nat
  used_le : used ≤ stackDepth
  deriving DecidableEq

namespace CallSlots

/-- Every slot cleared, and none in use. -/
def empty : CallSlots := ⟨Vector.replicate stackDepth 0, 0, Nat.zero_le _⟩

/-- The addresses in use, the newest first. -/
def live (c : CallSlots) : List UInt16 := (c.slots.toList.take c.used).reverse

/-- Put an address into the first slot that is not in use. -/
def push (c : CallSlots) (a : UInt16) (h : c.used < stackDepth) : CallSlots :=
  ⟨c.slots.set c.used a h, c.used + 1, h⟩

/-- Below a stack pointer that is not zero there is a slot. -/
theorem last_lt (c : CallSlots) (h : 0 < c.used) : c.used - 1 < stackDepth := by
  have hle := c.used_le
  omega

/-- The address in the last slot in use. -/
def top (c : CallSlots) (h : 0 < c.used) : UInt16 := c.slots.get ⟨c.used - 1, c.last_lt h⟩

/-- Give up the last slot in use. What is in it stays there. -/
def pop (c : CallSlots) : CallSlots :=
  { c with used := c.used - 1, used_le := (Nat.sub_le _ _).trans c.used_le }

/-- The stack is as deep as the stack pointer says. -/
theorem length_live (c : CallSlots) : c.live.length = c.used := by
  rw [live, List.length_reverse, List.length_take, Vector.length_toList]
  exact Nat.min_eq_left c.used_le

/-- A push puts one return address on top of the stack. -/
theorem live_push (c : CallSlots) (a : UInt16) (h : c.used < stackDepth) :
    (c.push a h).live = a :: c.live := by
  have hlen : c.used < c.slots.toList.length := by
    rw [Vector.length_toList]
    exact h
  show ((c.slots.set c.used a h).toList.take (c.used + 1)).reverse = a :: c.live
  rw [Vector.toList_set, List.take_add_one, List.take_set_of_le (Nat.le_refl _),
    List.getElem?_set_self hlen, Option.toList_some, List.reverse_append]
  rfl

/-- The last slot in use holds the newest address. -/
theorem live_eq_cons (c : CallSlots) (h : 0 < c.used) : c.live = c.top h :: c.pop.live := by
  have hlt : c.used - 1 < c.slots.toList.length := by
    rw [Vector.length_toList]
    exact c.last_lt h
  have htop : c.slots.toList[c.used - 1]? = some (c.top h) := by
    rw [List.getElem?_eq_getElem hlt, Vector.getElem_toList]
    rfl
  show (c.slots.toList.take c.used).reverse = c.top h :: (c.slots.toList.take (c.used - 1)).reverse
  rw [show c.used = c.used - 1 + 1 by omega, List.take_add_one, Nat.add_sub_cancel, htop,
    Option.toList_some, List.reverse_append]
  rfl

end CallSlots

-- ============================================================ the latch

/-- The keys that are down, the keys as last looked at, and who waits for
one of them, if anybody does. -/
structure KeyLatch where
  down : Keys
  seen : Keys
  asker : Option Reg
  deriving DecidableEq

namespace KeyLatch

/-- All keys up, now and when last looked at, and nobody waits. -/
def idle : KeyLatch := ⟨Keys.allUp, Keys.allUp, none⟩

/-- The keypad that a latch holds. -/
def keypad (k : KeyLatch) : Keypad Reg := ⟨k.down, k.asker.map fun x => ⟨x, k.seen⟩⟩

def await (k : KeyLatch) (x : Reg) : KeyLatch := { k with seen := k.down, asker := some x }

/-- Look at the keys. A look that ends the wait leaves `seen` as it is. -/
def poll (k : KeyLatch) : Option (Reg × Key) × KeyLatch :=
  match k.asker with
  | none => (none, k)
  | some x =>
    match Keys.fresh? k.seen k.down with
    | some key => (some (x, key), { k with asker := none })
    | none => (none, { k with seen := k.down })

/-- A keypad waits if the latch has somebody who asked. -/
theorem isWaiting_keypad (k : KeyLatch) : k.keypad.isWaiting = k.asker.isSome := Option.isSome_map

/-- Polling the latch is polling the keypad that it holds. -/
theorem keypad_poll (k : KeyLatch) : k.keypad.poll = (k.poll.1, k.poll.2.keypad) := by
  obtain ⟨down, seen, asker⟩ := k
  cases asker with
  | none => rfl
  | some x =>
      unfold poll Keypad.poll keypad
      cases hf : Keys.fresh? seen down with
      | none => simp [hf]
      | some key => simp [hf]

end KeyLatch

-- ============================================================ the board

/-- The machine in storage. -/
structure Board where
  config : Config
  memory : Memory
  registers : Vector UInt8 16
  index : UInt16
  pc : UInt16
  calls : CallSlots
  timers : Timers
  clock : Clock
  display : Display
  keys : KeyLatch
  stopped : Bool
  random : Random.Generator
  deriving DecidableEq

/-- What an instruction comes to for another state that is read off this
one. -/
def Ran.mapState {σ τ : Type} (f : σ → τ) : Ran σ → Ran τ
  | .ok out => .ok (f out.1, out.2)
  | .error g => .error ⟨g.fault, f g.state, g.events⟩

/-- What a call on a board comes to. -/
structure Board.Step (α : Type) where
  reply : α
  board : Board
  events : List Event

namespace Board

/-- The machine that a board holds. -/
def machine (b : Board) : Machine where
  config := b.config
  memory := b.memory
  registers := b.registers
  index := b.index
  pc := b.pc
  stack := b.calls.live
  timers := b.timers
  clock := b.clock
  display := b.display
  keypad := b.keys.keypad
  stopped := b.stopped
  random := b.random

/-- Take everything from a machine that a board has in common with it:
all but the slots and the latch. -/
def adopt (b : Board) (m : Machine) : Board where
  config := m.config
  memory := m.memory
  registers := m.registers
  index := m.index
  pc := m.pc
  calls := b.calls
  timers := m.timers
  clock := m.clock
  display := m.display
  keys := b.keys
  stopped := m.stopped
  random := m.random

/-- A board with all slots and the latch cleared, and the rest from a
machine. -/
def cleared (m : Machine) : Board where
  config := m.config
  memory := m.memory
  registers := m.registers
  index := m.index
  pc := m.pc
  calls := CallSlots.empty
  timers := m.timers
  clock := m.clock
  display := m.display
  keys := KeyLatch.idle
  stopped := m.stopped
  random := m.random

/-- What can be seen of a board. Of the slots that is those in use, of the
latch the keys that are down and whether anybody waits. -/
def snapshot (b : Board) : Snapshot where
  registers := b.registers
  index := b.index
  pc := b.pc
  stack := b.calls.slots.toList.take b.calls.used
  timers := b.timers
  memory := b.memory
  display := b.display
  keys := b.keys.down
  isWaiting := b.keys.asker.isSome
  stopped := b.stopped

-- ============================================================== running

def set (b : Board) (x : Reg) (value : UInt8) : Board :=
  { b with registers := (b.machine.set x value).registers }

def awaitKey (b : Board) (x : Reg) : Board × List Event :=
  if b.keys.asker.isSome then
    match b.keys.poll with
    | (some (y, key), keys) =>
      ({ b.set y (UInt8.ofNat key.val) with keys := keys, pc := b.pc + 2 }, [.keyPressed y key])
    | (none, keys) => ({ b with keys := keys }, [])
  else ({ b with keys := b.keys.await x }, [.awaitingKey x])

/-- Run an instruction that needs neither the slots nor the latch. -/
def execShared (b : Board) (i : Instr) : Ran Board := (b.machine.exec i).mapState b.adopt

/-- Run an instruction. One that gives up gives back the board as it has
made it by then, as on a machine. -/
def exec (b : Board) : Instr → Ran Board
  | .call t =>
    if h : b.calls.used < stackDepth then
      .ok ({ b with pc := t.word, calls := b.calls.push (b.pc + 2) h },
        [.called t.word (b.calls.used + 1)])
    else .error ⟨.stackOverflow b.pc, b, []⟩
  | .ret =>
    if h : 0 < b.calls.used then
      .ok ({ b with pc := b.calls.top h, calls := b.calls.pop },
        [.returned (b.calls.top h) (b.calls.used - 1)])
    else .error ⟨.stackUnderflow b.pc, b, []⟩
  | .awaitKey x => .ok (b.awaitKey x)
  | i => b.execShared i

def fetch (b : Board) : UInt16 := b.memory.readWord b.pc

/-- Stop on a fault, with some events reported before it. -/
def halt (b : Board) (events : List Event) (fault : Fault) : Step (Except Fault (Option Instr)) :=
  ⟨.error fault, { b with stopped := true }, events ++ [.halting fault]⟩

def cycle (b : Board) : Step (Except Fault (Option Instr)) :=
  if b.stopped then ⟨.ok none, b, []⟩
  else
    match Instr.decode? b.fetch with
    | some i =>
      match b.exec i with
      | .ok (b', events) => ⟨.ok (some i), b', events⟩
      | .error reached => reached.state.halt reached.events reached.fault
    | none => b.halt [] (.unknownInstruction b.fetch b.pc)

-- ============================================================= the host

/-- Wipe the board and let it run a program, unless the program does not
fit. -/
def load (b : Board) (now : Instant) (program : Array UInt8) : Step (Except Error Unit) :=
  if Memory.capacity < program.size then ⟨.error (.tooLarge program.size), b, []⟩
  else
    ⟨.ok (), cleared (Machine.loaded b.config b.random now program),
      [.reset, .loaded program.size]⟩

/-- Load a program from a file, given what came of reading it. -/
def loadFile (b : Board) (now : Instant) (path : String)
    (contents : Except FileProblem (Array UInt8)) : Step (Except Error Unit) :=
  match contents with
  | .ok program =>
    ⟨(b.load now program).reply, (b.load now program).board,
      .readFile path :: (b.load now program).events⟩
  | .error problem => ⟨.error (.unreadable path problem), b, []⟩

/-- Press or release a key, unless the number is no key's. -/
def setKey (b : Board) (code : UInt8) (isDown : Bool) : Step (Except Error Unit) :=
  if h : code.toNat < 16 then
    ⟨.ok (), { b with keys := { b.keys with down := b.keys.down.set code.toNat isDown h } }, []⟩
  else ⟨.error (.invalidKey code), b, [.unknownKey code]⟩

def perform (b : Board) (now : Instant) : Action → Step Reply
  | .load program =>
    let s := b.load now program
    ⟨.ofExcept s.reply, s.board, s.events⟩
  | .loadFile path contents =>
    let s := b.loadFile now path contents
    ⟨.ofExcept s.reply, s.board, s.events⟩
  | .reset => ⟨.done, cleared (Machine.fresh b.config b.random now), [.reset]⟩
  | .stop => ⟨.done, { b with stopped := true }, if b.stopped then [] else [.stopped b.pc]⟩
  | .cycle => ⟨.ofCycle b.cycle.reply, b.cycle.board, b.cycle.events⟩
  | .setKey code isDown =>
    let s := b.setKey code isDown
    ⟨.ofExcept s.reply, s.board, s.events⟩
  | .setKeys keys => ⟨.done, { b with keys := { b.keys with down := Keys.ofList keys } }, []⟩
  | a =>
    let o := b.machine.perform now a
    ⟨o.reply, b.adopt o.machine, o.events⟩

/-- Make the calls of a script one after the other. -/
def run (b : Board) : Script → Board
  | [] => b
  | (now, a) :: rest => (b.perform now a).board.run rest

/-- The boards that a host can come by. -/
inductive Reachable : Board → Prop where
  /-- A board that was just built. -/
  | new (config : Config) (entropy : Random.ChaCha.Key) (now : Instant) :
      Reachable (cleared (Machine.new config entropy now).machine)
  /-- What a call makes of a board. -/
  | perform {b : Board} (now : Instant) (a : Action) :
      Reachable b → Reachable (b.perform now a).board

/-- What a call on a board comes to for the machine that it holds. -/
def Step.outcome {α : Type} (s : Step α) : Outcome α := ⟨s.reply, s.board.machine, s.events⟩

variable {b : Board}

-- ================================================ what a board holds

/-- A board that adopts a machine with its own stack and keypad holds that
machine. -/
theorem machine_adopt {m : Machine} (hstack : m.stack = b.calls.live)
    (hkeypad : m.keypad = b.keys.keypad) : (b.adopt m).machine = m := by
  obtain ⟨_, _, _, _, _, stack, _, _, _, keypad, _, _⟩ := m
  cases hstack
  cases hkeypad
  rfl

/-- A board is snapshotted as its machine is, as neither the slots above
the stack pointer nor the leftover of a wait is in a snapshot. -/
theorem snapshot_machine (b : Board) : b.machine.snapshot = b.snapshot := by
  have hstack : b.calls.live.reverse = b.calls.slots.toList.take b.calls.used :=
    List.reverse_reverse _
  have hwait : b.keys.keypad.isWaiting = b.keys.asker.isSome := b.keys.isWaiting_keypad
  unfold Machine.snapshot snapshot
  rw [← hstack, ← hwait]
  rfl

-- ================================================ what an instruction does

/-- A call writes the slot that the stack pointer names, or overflows if
there is none. -/
theorem exec_call (b : Board) (t : Target) :
    b.exec (.call t) =
      if h : b.calls.used < stackDepth then
        .ok ({ b with pc := t.word, calls := b.calls.push (b.pc + 2) h },
          [.called t.word (b.calls.used + 1)])
      else .error ⟨.stackOverflow b.pc, b, []⟩ := rfl

/-- A return goes where the topmost slot says, or underflows if none is in
use. -/
theorem exec_ret (b : Board) :
    b.exec .ret =
      if h : 0 < b.calls.used then
        .ok ({ b with pc := b.calls.top h, calls := b.calls.pop },
          [.returned (b.calls.top h) (b.calls.used - 1)])
      else .error ⟨.stackUnderflow b.pc, b, []⟩ := rfl

/-- Looking for the awaited key on a board is looking for it on its
machine. -/
theorem awaitKey_machine (b : Board) (x : Reg) :
    b.machine.awaitKey x = ((b.awaitKey x).1.machine, (b.awaitKey x).2) := by
  have hpoll : b.machine.keypad.poll = (b.keys.poll.1, b.keys.poll.2.keypad) := b.keys.keypad_poll
  have hwait : b.machine.keypad.isWaiting = b.keys.asker.isSome := b.keys.isWaiting_keypad
  unfold Machine.awaitKey awaitKey
  rw [hwait, hpoll]
  split
  · rcases b.keys.poll with ⟨_ | ⟨y, key⟩, keys⟩
    · rfl
    · rfl
  · rfl

/-- An instruction that needs neither the slots nor the latch does on the
board what it does on the machine, and nothing beyond. -/
theorem execShared_machine {i : Instr} (hcall : ∀ t, i ≠ .call t) (hret : i ≠ .ret)
    (hawait : ∀ x, i ≠ .awaitKey x) :
    (b.execShared i).mapState machine = b.machine.exec i := by
  unfold execShared
  cases hexec : b.machine.exec i with
  | error g =>
      have hadopt : (b.adopt g.state).machine = g.state := by
        rw [Machine.exec_error hexec]
        exact machine_adopt rfl rfl
      show Except.error (⟨g.fault, (b.adopt g.state).machine, g.events⟩ : Faulted Machine)
        = Except.error g
      rw [hadopt]
  | ok out =>
      have hfoot := Machine.exec_footprint hexec
      have hkeypad : out.1.keypad = b.keys.keypad := by
        rw [show out.1.keypad = ⟨out.1.keypad.down, out.1.keypad.wait⟩ from rfl, hfoot.down,
          hfoot.wait hawait]
        rfl
      have hadopt := machine_adopt (hfoot.stack hcall hret) hkeypad
      show Except.ok ((b.adopt out.1).machine, out.2) = Except.ok out
      rw [hadopt]

/-- A board runs every instruction as the machine that it holds does: with
the same fault, the same events, and in either case the machine that the
instruction has left. -/
theorem exec_machine (b : Board) (i : Instr) :
    (b.exec i).mapState machine = b.machine.exec i := by
  have hlength : b.machine.stack.length = b.calls.used := b.calls.length_live
  by_cases hcall : ∃ t, i = .call t
  · obtain ⟨t, rfl⟩ := hcall
    rw [exec_call]
    by_cases hroom : b.calls.used < stackDepth
    · rw [dif_pos hroom, Machine.exec_call (by rw [hlength]; exact hroom), hlength]
      show Except.ok _ = Except.ok _
      simp only [machine, b.calls.live_push]
    · rw [dif_neg hroom]
      have hfull : stackDepth ≤ b.machine.stack.length := by
        rw [hlength]
        exact Nat.le_of_not_lt hroom
      rw [Machine.exec_call_of_full hfull]
      rfl
  by_cases hret : i = .ret
  · subst hret
    rw [exec_ret]
    by_cases hopen : 0 < b.calls.used
    · have hlive : b.machine.stack = b.calls.top hopen :: b.calls.pop.live :=
        b.calls.live_eq_cons hopen
      rw [dif_pos hopen, Machine.exec_ret hlive, b.calls.pop.length_live]
      rfl
    · have hnil : b.machine.stack = [] := List.length_eq_zero_iff.mp (by omega)
      rw [dif_neg hopen, Machine.exec_ret_of_empty hnil]
      rfl
  by_cases hawait : ∃ x, i = .awaitKey x
  · obtain ⟨x, rfl⟩ := hawait
    have hexec : b.machine.exec (.awaitKey x) = .ok (b.machine.awaitKey x) := rfl
    rw [hexec, awaitKey_machine]
    rfl
  · -- no slot and no latch is left to look at
    have hshared : b.exec i = b.execShared i := by
      cases i with
      | call t => exact absurd ⟨t, rfl⟩ hcall
      | ret => exact absurd rfl hret
      | awaitKey x => exact absurd ⟨x, rfl⟩ hawait
      | _ => rfl
    rw [hshared]
    exact execShared_machine (fun t hi => hcall ⟨t, hi⟩) hret fun x hi => hawait ⟨x, hi⟩

/-- An instruction that needs neither slots nor latch leaves the board as
it was when it fails, and reports nothing. -/
theorem execShared_error {i : Instr} {g : Faulted Board} (h : b.execShared i = .error g) :
    g = ⟨g.fault, b, []⟩ := by
  unfold execShared at h
  cases hexec : b.machine.exec i with
  | ok out =>
      rw [hexec] at h
      cases h
  | error g' =>
      rw [hexec, Machine.exec_error hexec] at h
      cases h
      rfl

/-- An instruction that gives up has changed nothing on the board, the
slots above the open calls and the latch included, and has reported
nothing. -/
theorem exec_error {i : Instr} {g : Faulted Board} (h : b.exec i = .error g) :
    g = ⟨g.fault, b, []⟩ := by
  cases i with
  | call t =>
      rw [exec_call] at h
      split at h
      · cases h
      · cases h
        rfl
  | ret =>
      rw [exec_ret] at h
      split at h
      · cases h
      · cases h
        rfl
  | awaitKey x => cases h
  | _ => exact execShared_error h

-- ======================================================= what a call does

/-- A cycle of a stopped board is idle. -/
theorem cycle_of_stopped (hstop : b.stopped = true) : b.cycle = ⟨.ok none, b, []⟩ := by
  unfold cycle
  rw [if_pos hstop]

/-- A cycle that finds no instruction halts the board, and nothing was
reported before. -/
theorem cycle_of_unknown (hrun : b.stopped = false) (hdec : Instr.decode? b.fetch = none) :
    b.cycle = b.halt [] (.unknownInstruction b.fetch b.pc) := by
  unfold cycle
  rw [hrun, hdec]
  rfl

/-- A cycle that finds an instruction and can run it does that. -/
theorem cycle_of_exec {i : Instr} {out : Board × List Event} (hrun : b.stopped = false)
    (hdec : Instr.decode? b.fetch = some i) (hexec : b.exec i = .ok out) :
    b.cycle = ⟨.ok (some i), out.1, out.2⟩ := by
  unfold cycle
  rw [hrun, hdec]
  dsimp only
  rw [hexec]
  rfl

/-- An instruction that gives up halts the board that it has left. -/
theorem cycle_of_error {i : Instr} {g : Faulted Board} (hrun : b.stopped = false)
    (hdec : Instr.decode? b.fetch = some i) (hexec : b.exec i = .error g) :
    b.cycle = g.state.halt g.events g.fault := by
  unfold cycle
  rw [hrun, hdec]
  dsimp only
  rw [hexec]
  rfl

/-- On a fault a cycle stops the board, reports it, and does nothing
else. -/
theorem cycle_of_fault {i : Instr} {g : Faulted Board} (hrun : b.stopped = false)
    (hdec : Instr.decode? b.fetch = some i) (hexec : b.exec i = .error g) :
    b.cycle = b.halt [] g.fault := by
  rw [cycle_of_error hrun hdec hexec, exec_error hexec]

/-- What a cycle can do on a board: nothing if it is stopped, halt on a
word that stands for no instruction or on an instruction that faults, or
run the instruction. -/
theorem cycle_cases (b : Board) :
    (b.stopped = true ∧ b.cycle = ⟨.ok none, b, []⟩)
      ∨ (b.stopped = false ∧ Instr.decode? b.fetch = none
        ∧ b.cycle = b.halt [] (.unknownInstruction b.fetch b.pc))
      ∨ (∃ i g, b.stopped = false ∧ Instr.decode? b.fetch = some i ∧ b.exec i = .error g
        ∧ b.cycle = b.halt [] g.fault)
      ∨ (∃ i b' events, b.stopped = false ∧ Instr.decode? b.fetch = some i
        ∧ b.exec i = .ok (b', events) ∧ b.cycle = ⟨.ok (some i), b', events⟩) := by
  cases hrun : b.stopped with
  | true => exact Or.inl ⟨rfl, cycle_of_stopped hrun⟩
  | false =>
      right
      cases hdec : Instr.decode? b.fetch with
      | none => exact Or.inl ⟨rfl, rfl, cycle_of_unknown hrun hdec⟩
      | some i =>
          right
          cases hexec : b.exec i with
          | error g => exact Or.inl ⟨i, g, rfl, rfl, hexec, cycle_of_fault hrun hdec hexec⟩
          | ok out => exact Or.inr ⟨i, out.1, out.2, rfl, rfl, hexec, cycle_of_exec hrun hdec hexec⟩

/-- A cycle on a board comes to what it comes to on the machine that the
board holds. -/
theorem cycle_outcome (b : Board) : b.cycle.outcome = b.machine.cycle := by
  unfold cycle Machine.cycle
  rw [show b.machine.stopped = b.stopped from rfl, show b.machine.fetch = b.fetch from rfl]
  cases hrun : b.stopped with
  | true => rfl
  | false =>
      cases hdec : Instr.decode? b.fetch with
      | none => rfl
      | some i =>
          dsimp only
          rw [← b.exec_machine i]
          cases b.exec i with
          | error f => rfl
          | ok out => rfl

/-- A call of `cycle` answers what the cycle answers. -/
theorem perform_cycle (b : Board) (now : Instant) :
    b.perform now .cycle = ⟨.ofCycle b.cycle.reply, b.cycle.board, b.cycle.events⟩ := rfl

/-- A program that fits is loaded onto a board wiped clean. -/
theorem load_of_fits (b : Board) (now : Instant) {program : Array UInt8}
    (h : program.size ≤ Memory.capacity) :
    b.load now program = ⟨.ok (), cleared (Machine.loaded b.config b.random now program),
      [.reset, .loaded program.size]⟩ := by
  unfold load
  rw [if_neg (Nat.not_lt.mpr h)]

theorem load_outcome (b : Board) (now : Instant) (program : Array UInt8) :
    (b.load now program).outcome = b.machine.load now program := by
  unfold load Machine.load
  split
  · rfl
  · rfl

theorem setKey_outcome (b : Board) (code : UInt8) (isDown : Bool) :
    (b.setKey code isDown).outcome = b.machine.setKey code isDown := by
  unfold setKey Machine.setKey Key.ofNat?
  split
  · rfl
  · rfl

/-- A board answers every call as the machine that it holds does, and
then holds what the machine has become. -/
theorem perform_outcome (b : Board) (now : Instant) (a : Action) :
    (b.perform now a).outcome = b.machine.perform now a := by
  cases a with
  | load program =>
      show (b.load now program).outcome.map Reply.ofExcept = _
      rw [load_outcome]
      rfl
  | loadFile path contents =>
      cases contents with
      | error problem => rfl
      | ok program =>
          show (⟨Reply.ofExcept (b.load now program).outcome.reply,
            (b.load now program).outcome.machine,
            .readFile path :: (b.load now program).outcome.events⟩ : Outcome Reply) = _
          rw [load_outcome]
          rfl
  | cycle =>
      show b.cycle.outcome.map Reply.ofCycle = _
      rw [cycle_outcome]
      rfl
  | setKey code isDown =>
      show (b.setKey code isDown).outcome.map Reply.ofExcept = _
      rw [setKey_outcome]
      rfl
  | _ => rfl

/-- What a call makes of a board it makes of its machine. -/
theorem perform_machine (b : Board) (now : Instant) (a : Action) :
    (b.perform now a).board.machine = (b.machine.perform now a).machine :=
  congrArg Outcome.machine (b.perform_outcome now a)

/-- No call changes the configuration. -/
theorem perform_config (b : Board) (now : Instant) (a : Action) :
    (b.perform now a).board.config = b.config := by
  have hm := b.machine.perform_config now a
  rw [← perform_machine] at hm
  exact hm

/-- A board that a host can come by holds a machine that a host can come
by. -/
theorem Reachable.machine {b : Board} (hb : b.Reachable) : b.machine.Reachable := by
  induction hb with
  | new config entropy now => exact .new config entropy now
  | @perform b now a _ ih =>
      rw [perform_machine]
      exact .perform now a ih

/-- A board that was just let run a program. -/
theorem reachable_booted {program : Array UInt8} (h : program.size ≤ Memory.capacity) :
    (cleared (Machine.booted program)).Reachable := by
  have hload := Reachable.perform 0 (.load program) (.new {} (Random.keyOfSeed 0) 0)
  rw [show ∀ b : Board, (b.perform 0 (.load program)).board = (b.load 0 program).board
    from fun _ => rfl, load_of_fits _ _ h] at hload
  exact hload

/-- What a script leaves of a board that a host can come by, a host can
come by. -/
theorem Reachable.run (script : Script) :
    ∀ {b : Board}, b.Reachable → (b.run script).Reachable := by
  induction script with
  | nil => intro b hb; exact hb
  | cons call rest ih =>
      intro b hb
      exact ih (.perform call.1 call.2 hb)

/-- The machines that a host can come by are those that boards hold. -/
theorem reachable_iff_board {m : Machine} :
    m.Reachable ↔ ∃ b : Board, b.Reachable ∧ b.machine = m := by
  constructor
  · intro hm
    induction hm with
    | new config entropy now => exact ⟨_, .new config entropy now, rfl⟩
    | @perform m now a _ ih =>
        obtain ⟨b, hb, rfl⟩ := ih
        exact ⟨_, .perform now a hb, b.perform_machine now a⟩
  · rintro ⟨b, hb, rfl⟩
    exact hb.machine

end Board

end Chip8
