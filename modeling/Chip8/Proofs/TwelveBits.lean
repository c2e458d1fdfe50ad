/-
The high bits of an address are invisible to a program.

# Boards

Machines whose addresses agree in their low twelve bits stay so, whatever
a host calls on them (`Machine.Congruent.perform`). A board holds more
than its machine: the keys as last looked at are on it when nobody waits
any more. Boards are congruent if their machines are and their latches
are the same, that leftover included (`Board.congruent_iff`).

# The step

What a call makes of the latch is told by the latch and by the
instruction that the call runs, if it runs one (`cycle_keys`); no address
comes into it. So the latches stay the same where the machines stay
congruent.

# The run

By induction two congruent boards get congruent answers from a script,
and are congruent after each of its calls (`Congruent.run`). The same
argument goes for a board whose addresses are cut to twelve bits after
every call (`TwelveBit.run`): the cut leaves a congruent board, so it is
congruent to the board that keeps its sixteen bits, call by call
(`Congruent.narrow_run`).
-/
import Chip8.Proofs.Congruence
import Chip8.Proofs.Course
import Chip8.Proofs.Effects

namespace Chip8

-- ========================================================== the latch

/-- The latch when FX0A has been run: a wait has begun, or the keys have
been looked at for one that was on. -/
def KeyLatch.ask (k : KeyLatch) (x : Reg) : KeyLatch :=
  if k.asker.isSome then k.poll.2 else k.await x

/-- The latch when a cycle has found this instruction, or none. -/
def KeyLatch.afterCycle (k : KeyLatch) : Option Instr → KeyLatch
  | some (.awaitKey x) => k.ask x
  | _ => k

namespace Board

variable {b b' : Board} {now : Instant}

/-- Waiting for a key asks the latch. -/
theorem awaitKey_keys (b : Board) (x : Reg) : (b.awaitKey x).1.keys = b.keys.ask x := by
  unfold awaitKey KeyLatch.ask
  split
  · rcases b.keys.poll with ⟨_ | ⟨y, key⟩, keys⟩
    · rfl
    · rfl
  · rfl

/-- What a cycle makes of the latch depends on nothing but the latch and
the instruction. -/
theorem cycle_keys (hrun : b.stopped = false) :
    b.cycle.board.keys = b.keys.afterCycle (Instr.decode? b.fetch) := by
  rcases b.cycle_cases with ⟨hstop, -⟩ | ⟨-, hdec, hc⟩ | ⟨i, g, -, hdec, hexec, hc⟩
    | ⟨i, out, events, -, hdec, hexec, hc⟩
  · rw [hrun] at hstop
    cases hstop
  · rw [hc, hdec]
    rfl
  · rw [hc, hdec]
    cases i with
    | awaitKey x => cases hexec
    | _ => rfl
  · rw [hc, hdec]
    cases i with
    | awaitKey x =>
        have hout : b.awaitKey x = (out, events) := Except.ok.inj hexec
        have hkeys := b.awaitKey_keys x
        rw [hout] at hkeys
        exact hkeys
    | _ => exact exec_keys hexec nofun

/-- A load wipes the latch if the program fits, and leaves it alone if it
does not. -/
theorem load_keys (b : Board) (now : Instant) (program : Array UInt8) :
    (b.load now program).board.keys
      = if Memory.capacity < program.size then b.keys else KeyLatch.idle := by
  unfold load
  split
  · rfl
  · rfl

-- ==================================================== congruent boards

/-- Two boards whose addresses agree in their low twelve bits, those in
the slots that are in use among them, and that agree in everything else:
as many slots are in use, and the latch is the same whether anybody waits
or not. Slots that are not in use do not count. -/
structure Congruent (b b' : Board) : Prop where
  config : b'.config = b.config
  memory : b'.memory = b.memory
  registers : b'.registers = b.registers
  index : SameCell b.index b'.index
  pc : SameCell b.pc b'.pc
  calls : List.Forall₂ SameCell b.calls.live b'.calls.live
  timers : b'.timers = b.timers
  clock : b'.clock = b.clock
  display : b'.display = b.display
  keys : b'.keys = b.keys
  stopped : b'.stopped = b.stopped
  random : b'.random = b.random

/-- Boards are congruent if the machines on them are, and the latches are
the same. -/
theorem congruent_iff : b.Congruent b' ↔ b.machine.Congruent b'.machine ∧ b'.keys = b.keys := by
  constructor
  · intro h
    have hmachine : b.machine.Congruent b'.machine :=
      { h with stack := h.calls, keypad := congrArg KeyLatch.keypad h.keys }
    exact ⟨hmachine, h.keys⟩
  · intro h
    obtain ⟨hmachine, hkeys⟩ := h
    exact { hmachine with calls := hmachine.stack, keys := hkeys }

namespace Congruent

/-- On congruent boards there are congruent machines. -/
theorem machine (h : b.Congruent b') : b.machine.Congruent b'.machine := (congruent_iff.mp h).1

theorem fetch (h : b.Congruent b') : b.fetch = b'.fetch := h.machine.fetch

theorem trans {b₁ b₂ b₃ : Board} (h : b₁.Congruent b₂) (h' : b₂.Congruent b₃) :
    b₁.Congruent b₃ where
  config := h'.config.trans h.config
  memory := h'.memory.trans h.memory
  registers := h'.registers.trans h.registers
  index := h.index.trans h'.index
  pc := h.pc.trans h'.pc
  calls := SameCell.forall₂_trans h.calls h'.calls
  timers := h'.timers.trans h.timers
  clock := h'.clock.trans h.clock
  display := h'.display.trans h.display
  keys := h'.keys.trans h.keys
  stopped := h'.stopped.trans h.stopped
  random := h'.random.trans h.random

-- ============================================================= the step

/-- A cycle makes the same latch of either board, as both have the same
latch and run the same word. -/
theorem cycle_keys (h : b.Congruent b') : b'.cycle.board.keys = b.cycle.board.keys := by
  cases hrun : b.stopped with
  | true =>
      rw [cycle_of_stopped hrun, cycle_of_stopped (h.stopped.trans hrun)]
      exact h.keys
  | false =>
      rw [Board.cycle_keys hrun, Board.cycle_keys (h.stopped.trans hrun), h.keys, h.fetch]

/-- No call on congruent boards tells their latches apart. -/
theorem perform_keys (h : b.Congruent b') (now : Instant) (a : Action) :
    (b'.perform now a).board.keys = (b.perform now a).board.keys := by
  have hload (program : Array UInt8) :
      (b'.load now program).board.keys = (b.load now program).board.keys := by
    rw [load_keys, load_keys, h.keys]
  cases a with
  | cycle => exact h.cycle_keys
  | load program => exact hload program
  | loadFile path contents =>
      cases contents with
      | error problem => exact h.keys
      | ok program => exact hload program
  | reset => rfl
  | setKey code isDown =>
      show (b'.setKey code isDown).board.keys = (b.setKey code isDown).board.keys
      unfold Board.setKey
      rw [h.keys]
      split
      · rfl
      · exact h.keys
  | setKeys keys =>
      show { b'.keys with down := Keys.ofList keys } = { b.keys with down := Keys.ofList keys }
      rw [h.keys]
  | _ => exact h.keys

/-- Whatever a host calls on two congruent boards, it gets congruent
answers and leaves congruent boards. -/
theorem perform (h : b.Congruent b') (now : Instant) (a : Action)
    (hflag : b.config.flagsIndexOverflow = false
      ∨ ∀ x, (b.perform now a).reply ≠ .ran (.addIndex x)) :
    (b.perform now a).reply.Congruent (b'.perform now a).reply
      ∧ (b.perform now a).board.Congruent (b'.perform now a).board := by
  have hreply (b : Board) : (b.machine.perform now a).reply = (b.perform now a).reply :=
    congrArg Outcome.reply (b.perform_outcome now a).symm
  rw [← hreply] at hflag
  obtain ⟨hreplies, hmachines⟩ := h.machine.perform now a hflag
  rw [hreply, hreply] at hreplies
  rw [← perform_machine, ← perform_machine] at hmachines
  exact ⟨hreplies, congruent_iff.mpr ⟨hmachines, h.perform_keys now a⟩⟩

end Congruent

-- ============================================================== the run

/-- Where FX1E sets no flag, or a script runs none, the script has no way
to look at an address as a whole. -/
def FlagUnseen (b : Board) (script : Script) : Prop :=
  b.config.flagsIndexOverflow = false ∨ ∀ x, .ran (.addIndex x) ∉ b.replies script

/-- What goes for a script goes for its first call. -/
theorem FlagUnseen.first {a : Action} {rest : Script} (h : b.FlagUnseen ((now, a) :: rest)) :
    b.config.flagsIndexOverflow = false ∨ ∀ x, (b.perform now a).reply ≠ .ran (.addIndex x) :=
  h.imp_right fun hnone x hran => hnone x (hran ▸ List.mem_cons_self)

theorem FlagUnseen.rest {a : Action} {rest : Script} (h : b.FlagUnseen ((now, a) :: rest)) :
    (b.perform now a).board.FlagUnseen rest := by
  unfold FlagUnseen
  rw [perform_config]
  exact h.imp_right fun hnone x hran => hnone x (List.mem_cons_of_mem _ hran)

/-- A script gets congruent answers from congruent boards, and leaves them
congruent after each of its calls. -/
theorem Congruent.run {script : Script} :
    ∀ {b b' : Board}, b.Congruent b' → b.FlagUnseen script →
      List.Forall₂ Reply.Congruent (b.replies script) (b'.replies script)
        ∧ ∀ n, (b.run (script.take n)).Congruent (b'.run (script.take n)) := by
  induction script with
  | nil =>
      intro b b' h _
      refine ⟨.nil, fun n => ?_⟩
      rw [List.take_nil]
      exact h
  | cons call rest ih =>
      intro b b' h hflag
      obtain ⟨now, a⟩ := call
      obtain ⟨hreply, hboard⟩ := h.perform now a hflag.first
      obtain ⟨hreplies, hruns⟩ := ih hboard hflag.rest
      rw [replies_cons, replies_cons]
      refine ⟨.cons hreply hreplies, fun n => ?_⟩
      cases n with
      | zero => exact h
      | succ n => exact hruns n

end Board

-- ===================================================== twelve bits only

/-- The lowest address of the cell that an address falls on. -/
def lowAddress (a : UInt16) : UInt16 := (Cell.ofAddress a).address

/-- The lowest address of a cell has the low twelve bits. -/
theorem toNat_lowAddress (a : UInt16) : (lowAddress a).toNat = a.toNat % 4096 := by
  have hlt := Cell.toNat_mod_lt a
  show (UInt16.ofNat (a.toNat % 4096)).toNat = a.toNat % 4096
  exact UInt16.toNat_ofNat_of_lt' (by rw [show UInt16.size = 65536 from rfl]; omega)

theorem lowAddress_lt (a : UInt16) : (lowAddress a).toNat < 4096 := by
  rw [toNat_lowAddress]
  exact Cell.toNat_mod_lt a

/-- An address falls on the same cell as the lowest of that cell. -/
theorem sameCell_lowAddress (a : UInt16) : SameCell a (lowAddress a) := by
  unfold SameCell
  rw [toNat_lowAddress, Nat.mod_mod]

/-- Cut what is in the slots to twelve bits. -/
def CallSlots.narrow (c : CallSlots) : CallSlots := { c with slots := c.slots.map lowAddress }

/-- Cutting the slots cuts the return addresses in them. -/
theorem CallSlots.live_narrow (c : CallSlots) : c.narrow.live = c.live.map lowAddress := by
  show ((c.slots.map lowAddress).toList.take c.used).reverse = _
  rw [Vector.toList_map, ← List.map_take, ← List.map_reverse]
  rfl

/-- A board whose addresses have twelve bits. -/
structure TwelveBit where
  board : Board
  index_lt : board.index.toNat < 4096
  pc_lt : board.pc.toNat < 4096
  slots_lt : ∀ a ∈ board.calls.slots.toList, a.toNat < 4096

/-- Cut the addresses on a board to twelve bits. -/
def Board.narrow (b : Board) : TwelveBit where
  board := { b with index := lowAddress b.index, pc := lowAddress b.pc, calls := b.calls.narrow }
  index_lt := lowAddress_lt _
  pc_lt := lowAddress_lt _
  slots_lt := by
    show ∀ a ∈ (b.calls.slots.map lowAddress).toList, a.toNat < 4096
    rw [Vector.toList_map]
    exact List.forall_mem_map.mpr fun a _ => lowAddress_lt a

namespace TwelveBit

/-- Make the calls of a script, with addresses that wrap at twelve bits. -/
def run (t : TwelveBit) : Script → TwelveBit
  | [] => t
  | (now, a) :: rest => (t.board.perform now a).board.narrow.run rest

/-- What the calls of a script answer, in their order. -/
def replies (t : TwelveBit) : Script → List Reply
  | [] => []
  | (now, a) :: rest =>
    (t.board.perform now a).reply :: (t.board.perform now a).board.narrow.replies rest

end TwelveBit

namespace Board

variable {b b' : Board}

/-- A cut is not seen. -/
theorem congruent_narrow (b : Board) : b.Congruent b.narrow.board where
  config := rfl
  memory := rfl
  registers := rfl
  index := sameCell_lowAddress _
  pc := sameCell_lowAddress _
  calls := by
    show List.Forall₂ SameCell b.calls.live b.calls.narrow.live
    rw [CallSlots.live_narrow]
    exact List.forall₂_map_right_iff.mpr (List.forall₂_same.mpr fun a _ => sameCell_lowAddress a)
  timers := rfl
  clock := rfl
  display := rfl
  keys := rfl
  stopped := rfl
  random := rfl

/-- A board with addresses of twelve bits keeps in step with one that has
sixteen. -/
theorem Congruent.narrow_run {script : Script} :
    ∀ {b : Board} {t : TwelveBit}, b.Congruent t.board → b.FlagUnseen script →
      List.Forall₂ Reply.Congruent (b.replies script) (t.replies script)
        ∧ ∀ n, (b.run (script.take n)).Congruent (t.run (script.take n)).board := by
  induction script with
  | nil =>
      intro b t h _
      refine ⟨.nil, fun n => ?_⟩
      rw [List.take_nil]
      exact h
  | cons call rest ih =>
      intro b t h hflag
      obtain ⟨now, a⟩ := call
      obtain ⟨hreply, hboard⟩ := h.perform now a hflag.first
      obtain ⟨hreplies, hruns⟩ := ih (hboard.trans (congruent_narrow _)) hflag.rest
      refine ⟨.cons hreply hreplies, fun n => ?_⟩
      cases n with
      | zero => exact h
      | succ n => exact hruns n

/-- The high four bits of addresses are invisible to a program.

Let two boards agree in everything, their addresses in the low twelve
bits, and let FX1E set no flag or not be run. Then every script gets the
same answers from both, but for the high bits of where a fault happened,
and they agree in the same way after each of its calls: in the keys as
last looked at, too, whether anybody waits for a key or not. So the board
does what a board with addresses of twelve bits does. -/
theorem high_bits_invisible (h : b.Congruent b') (script : Script)
    (hflag : b.config.flagsIndexOverflow = false
      ∨ ∀ x, .ran (.addIndex x) ∉ b.replies script) :
    List.Forall₂ Reply.Congruent (b.replies script) (b'.replies script)
      ∧ (∀ n, (b.run (script.take n)).Congruent (b'.run (script.take n)))
      ∧ List.Forall₂ Reply.Congruent (b.replies script) (b.narrow.replies script)
      ∧ (∀ n, (b.run (script.take n)).Congruent (b.narrow.run (script.take n)).board) := by
  obtain ⟨hreplies, hruns⟩ := h.run hflag
  obtain ⟨hreplies', hruns'⟩ := b.congruent_narrow.narrow_run hflag
  exact ⟨hreplies, hruns, hreplies', hruns'⟩

/-- A program that stores V0 where the machine starts with I, at the
first byte of the font. -/
def storeAtFont : Array UInt8 := #[0xF0, 0x55]

/-- A board that was just let run it, with a key on the latch that was
down when last looked at. -/
def beforeFontStore : Board :=
  { cleared (Machine.booted storeAtFont) with
    keys := ⟨Keys.allUp, Keys.ofList [⟨5, by decide⟩], none⟩ }

/-- The same board with other high bits. -/
def raised : Board := { beforeFontStore with index := 0x1000, pc := 0xF200 }

/-- The store is run from 0xF200 as from 0x200, and at 0x1000 it comes to
the same as at 0. The key stays on both latches. -/
theorem raised_store_is_same :
    beforeFontStore.Congruent raised
      ∧ beforeFontStore.replies [(0, .cycle)] = [.ran (.store 0)]
      ∧ raised.replies [(0, .cycle)] = [.ran (.store 0)]
      ∧ (beforeFontStore.run [(0, .cycle)]).Congruent (raised.run [(0, .cycle)])
      ∧ (raised.run [(0, .cycle)]).keys.seen = (beforeFontStore.run [(0, .cycle)]).keys.seen := by
  have hraised : ∀ b : Board, SameCell b.index 0x1000 → SameCell b.pc 0xF200 →
      b.Congruent { b with index := 0x1000, pc := 0xF200 } := fun b hindex hpc =>
    ⟨rfl, rfl, rfl, hindex, hpc, List.forall₂_same.mpr fun a _ => .refl a, rfl, rfl, rfl, rfl, rfl,
      rfl⟩
  have hcongruent : beforeFontStore.Congruent raised := hraised _ rfl rfl
  have hmem : beforeFontStore.machine.memory = Memory.ofProgram storeAtFont := rfl
  have hdec : Instr.decode? beforeFontStore.fetch = some (.store 0) :=
    Memory.decode_ofProgram (k := 0) hmem rfl (by decide) rfl
  have hreplies : beforeFontStore.replies [(0, .cycle)] = [.ran (.store 0)] := by
    have hreply : ∀ b : Board, b.replies [(0, .cycle)] = [Reply.ofCycle b.cycle.reply] :=
      fun _ => rfl
    rw [hreply, cycle_of_exec rfl hdec rfl]
    rfl
  have hnone : ∀ x, .ran (.addIndex x) ∉ beforeFontStore.replies [(0, .cycle)] := by
    rw [hreplies]
    simp
  obtain ⟨hsame, hruns, -, -⟩ := high_bits_invisible hcongruent [(0, .cycle)] (Or.inr hnone)
  refine ⟨hcongruent, hreplies, ?_, hruns 1, congrArg KeyLatch.seen (hruns 1).keys⟩
  rw [hreplies] at hsame
  generalize raised.replies [(0, .cycle)] = answers at hsame ⊢
  obtain _ | ⟨hreply, hrest⟩ := hsame
  cases hreply
  cases hrest
  rfl

end Board

end Chip8
