/-
A load erases the past.

# What is wiped

A restart writes every part of a board but three: the configuration, the
source of random bytes, and the pace of the clock, of which only the last
instant is set (`Board.wipe`). It does not ask what was there before. On
a board that a host can come by the pace of the clock is that of the
configuration, so nothing of the past is left in it either, and the board
is the one that a machine fresh from building would have
(`cleared_eq_wipe`): the slots above the open calls, the keys as last
looked at and the part of an interval that had passed are gone with the
rest.

# What is left

The configuration never changes, and the source has moved on by the bytes
that were drawn (`run_random`). So two histories of machines built alike
that drew equally often cannot be told apart once a program was loaded.
-/
import Chip8.Proofs.Decay
import Chip8.Proofs.Draws
import Chip8.Proofs.Observation

namespace Chip8

namespace Machine

/-- What is seen of a script has its answers in it. -/
theorem observe_reply (script : Script) :
    ∀ m : Machine, (m.observe script).map Sight.reply = m.replies script := by
  induction script with
  | nil => intro m; rfl
  | cons call rest ih =>
      intro m
      obtain ⟨now, a⟩ := call
      rw [replies_cons, ← ih]
      rfl

end Machine

namespace Board

variable {b : Board}

/-- A board that was just built. -/
def built (config : Config) (entropy : Random.ChaCha.Key) (now : Instant) : Board :=
  cleared (Machine.new config entropy now).machine

/-- How many of the calls of a script are seen to draw a random byte. -/
def draws (b : Board) (script : Script) : Nat :=
  (b.observe script).countP fun s => s.reply.isDraw

theorem draws_machine (b : Board) (script : Script) : b.draws script = b.machine.draws script := by
  unfold draws Machine.draws
  rw [observe_machine, ← Machine.observe_reply, List.countP_map]
  rfl

/-- What a script makes of a board it makes of its machine. -/
theorem run_machine (script : Script) :
    ∀ b : Board, (b.run script).machine = b.machine.run script := by
  induction script with
  | nil => intro b; rfl
  | cons call rest ih =>
      intro b
      obtain ⟨now, a⟩ := call
      rw [Machine.run_cons, ← perform_machine, ← ih]
      rfl

theorem run_config (b : Board) (script : Script) : (b.run script).config = b.config := by
  have hm := b.machine.run_config script
  rw [← run_machine] at hm
  exact hm

/-- After a script the source of a board has moved on by as many bytes as
were drawn. -/
theorem run_random (b : Board) (script : Script) :
    (b.run script).random = b.random.after (b.draws script) := by
  have hm := b.machine.run_random script
  rw [← run_machine, ← draws_machine] at hm
  exact hm

/-- On a board that a host can come by the clock goes at the configured
pace. -/
theorem Reachable.paced (hb : b.Reachable) :
    b.clock.interval = b.config.timerInterval.toNat * 1000000 := hb.machine.paced

-- ======================================================= what is wiped

/-- Write every part of a board but its configuration, the interval of its
clock and its random bytes: a memory, whether it is stopped, and all
else as it is where a machine starts. -/
def wipe (b : Board) (now : Instant) (memory : Memory) (stopped : Bool) : Board :=
  { b with
    memory := memory
    registers := Vector.replicate 16 0
    index := 0
    pc := UInt16.ofNat Memory.programStart
    calls := CallSlots.empty
    timers := Timers.zero
    clock := b.clock.restart now
    display := Display.blank
    keys := KeyLatch.idle
    stopped := stopped }

/-- A board that was just loaded is one with every field wiped, but for
configuration and source. -/
theorem cleared_eq_wipe (hb : b.Reachable) (now : Instant) (program : Array UInt8) :
    cleared (Machine.loaded b.config b.random now program)
      = b.wipe now (Memory.ofProgram program) false := by
  have hclock : (⟨b.config.timerInterval.toNat * 1000000, now⟩ : Clock) = b.clock.restart now := by
    rw [← hb.paced]
    rfl
  unfold wipe
  rw [← hclock]
  rfl

/-- A program that fits is loaded onto a board wiped clean, whatever was on
it. -/
theorem perform_load {program : Array UInt8} (hsize : program.size ≤ Memory.capacity)
    (b : Board) (now : Instant) :
    b.perform now (.load program)
      = ⟨.done, cleared (Machine.loaded b.config b.random now program),
          [.reset, .loaded program.size]⟩ := by
  show (⟨.ofExcept (b.load now program).reply, (b.load now program).board,
    (b.load now program).events⟩ : Step Reply) = _
  rw [load_of_fits b now hsize]
  rfl

/-- A load asks for nothing but the configuration and the random bytes. -/
theorem perform_load_congr {program : Array UInt8} (hsize : program.size ≤ Memory.capacity)
    {c c' : Board} (hconfig : c.config = c'.config) (hrandom : c.random = c'.random)
    (now : Instant) : c.perform now (.load program) = c'.perform now (.load program) := by
  rw [perform_load hsize, perform_load hsize, hconfig, hrandom]

end Board

-- ========================================================== the history

/-- How a board was built, and the calls made on it since. -/
structure History where
  config : Config
  entropy : Random.ChaCha.Key
  start : Instant
  calls : Script

namespace History

/-- Where a history has led. -/
def board (h : History) : Board := (Board.built h.config h.entropy h.start).run h.calls

/-- How many random bytes were drawn. -/
def draws (h : History) : Nat := (Board.built h.config h.entropy h.start).draws h.calls

/-- Two histories draw from the same bytes: the configuration gives the
seed, or else the two machines were given the same. -/
def SameSeed (h h' : History) : Prop := h.config.seed = none → h.entropy = h'.entropy

/-- A host can come by what a history leaves. -/
theorem reachable (h : History) : h.board.Reachable :=
  Board.Reachable.run h.calls (.new h.config h.entropy h.start)

theorem board_config (h : History) : h.board.config = h.config := Board.run_config _ _

/-- A history leaves the source of its seed, or of chance, moved on by as
many bytes as were drawn. -/
theorem board_random (h : History) :
    h.board.random
      = Random.Generator.after (.ofKey ((h.config.seed.map Random.keyOfSeed).getD h.entropy))
          h.draws := Board.run_random _ _

/-- Histories with the same configuration and seed that drew as many bytes
leave the same source. -/
theorem board_random_eq {h h' : History} (hconfig : h.config = h'.config)
    (hseed : h.SameSeed h') (hdraws : h.draws = h'.draws) : h.board.random = h'.board.random := by
  rw [board_random, board_random, hdraws, hconfig]
  congr 2
  cases hs : h'.config.seed with
  | none => exact hseed (hconfig ▸ hs)
  | some seed => rfl

/-- A load erases the past. Let a program that fits be loaded at some
instant, whatever came before. The load is done, and of the board only
the configuration and the random bytes are still what they were: memory
is the font, zeros up to 0x200, the program, and zeros behind it; all
else is cleared, the clock starts at that instant, and the machine runs.
It is the board that the same load makes of one that was just built, in
that configuration and with those random bytes. So from another history
with the same configuration and the same seed that drew equally often, no
later script tells it apart. -/
theorem load_erases_past (h : History) {program : Array UInt8} (hsize : program.size ≤ 3584)
    (now : Instant) :
    (h.board.perform now (.load program)).reply = .done
      ∧ (h.board.perform now (.load program)).board
        = { config := h.config
            memory := Memory.ofProgram program
            registers := Vector.replicate 16 0
            index := 0
            pc := 0x200
            calls := CallSlots.empty
            timers := ⟨0, 0⟩
            clock := ⟨h.config.timerInterval.toNat * 1000000, now⟩
            display := Display.blank
            keys := ⟨Keys.allUp, Keys.allUp, none⟩
            stopped := false
            random := h.board.random }
      ∧ (Memory.ofProgram program).cells.toList
        = Font.bytes.toList ++ List.replicate (0x200 - 80) 0 ++ program.toList
          ++ List.replicate (3584 - program.size) 0
      ∧ (h.board.perform now (.load program)).board
        = h.board.wipe now (Memory.ofProgram program) false
      ∧ (∀ entropy start, (h.board.perform now (.load program)).board
        = (({ Board.built h.config entropy start with random := h.board.random } : Board).perform
            now (.load program)).board)
      ∧ ∀ h' : History, h.config = h'.config → h.SameSeed h' → h.draws = h'.draws →
          ∀ later : Script, h.board.observe ((now, .load program) :: later)
            = h'.board.observe ((now, .load program) :: later) := by
  have hload := Board.perform_load hsize h.board now
  refine ⟨?_, ?_, Memory.toList_ofProgram hsize, ?_, fun entropy start => ?_,
    fun h' hconfig hseed hdraws later => ?_⟩
  · rw [hload]
  · rw [hload, board_config]
    rfl
  · rw [hload]
    exact Board.cleared_eq_wipe h.reachable now program
  · have hconfig : h.board.config
        = ({ Board.built h.config entropy start with random := h.board.random } : Board).config :=
      h.board_config
    exact congrArg Board.Step.board (Board.perform_load_congr hsize hconfig rfl now)
  · have hsame := Board.perform_load_congr hsize
      (h.board_config.trans (hconfig.trans h'.board_config.symm))
      (board_random_eq hconfig hseed hdraws) now
    unfold Board.observe
    rw [hsame]

/-- A program that begins with CXNN draws in its first cycle. -/
theorem draws_of_load_cycle (m : Machine) {program : Array UInt8} {x : Reg} {mask : UInt8}
    (hsize : program.size ≤ Memory.capacity)
    (hdec : Instr.decode?
      (UInt16.ofNat ((program.getD 0 0).toNat * 256 + (program.getD 1 0).toNat))
        = some (.random x mask)) (now now' : Instant) :
    m.draws [(now, .load program), (now', .cycle)] = 1 := by
  have hload : (m.perform now (.load program)).machine
      = Machine.loaded m.config m.random now program := by
    show (m.load now program).machine = _
    rw [Machine.load_of_fits m now hsize]
  have hdec' : Instr.decode? (Machine.loaded m.config m.random now program).fetch
      = some (.random x mask) := Memory.decode_ofProgram (k := 0) rfl rfl (by decide) hdec
  have hdraw : ((Machine.loaded m.config m.random now program).perform now' .cycle).reply.isDraw
      = true := by
    show (Reply.ofCycle (Machine.loaded m.config m.random now program).cycle.reply).isDraw = true
    rw [Machine.cycle_of_exec rfl hdec' rfl]
    rfl
  rw [Machine.draws_cons, Machine.isDraw_eq_false (a := .load program) nofun, hload,
    Machine.draws_cons, hdraw]
  rfl

/-- A machine that drew into V1 and still runs. -/
def running : History :=
  ⟨{}, Random.keyOfSeed 0, 0, [(1, .load #[0xC1, 0xFF]), (2, .cycle)]⟩

/-- A machine, built later, that has a timer and a key set, drew into V2,
and was stopped. -/
def halted : History :=
  ⟨{}, Random.keyOfSeed 0, 5, [(6, .setDelay 9), (7, .setKey 3 true), (8, .load #[0xC2, 0x00]),
    (9, .cycle), (10, .stop)]⟩

/-- Both drew once, and once they have loaded the same program nobody can
tell which is which. -/
theorem running_halted_alike :
    running.draws = 1 ∧ halted.draws = 1
      ∧ (running.board.perform 20 (.load Machine.inPlace)).reply = .done
      ∧ (running.board.perform 20 (.load Machine.inPlace)).board.clock = ⟨1000000000, 20⟩
      ∧ running.board.observe [(20, .load Machine.inPlace), (21, .cycle), (22, .settleClock)]
        = halted.board.observe
            [(20, .load Machine.inPlace), (21, .cycle), (22, .settleClock)] := by
  have hrunning : running.draws = 1 := by
    unfold draws
    rw [Board.draws_machine]
    exact draws_of_load_cycle _ (by decide) rfl 1 2
  have hhalted : halted.draws = 1 := by
    have hcalls : halted.calls = (([(6, .setDelay 9), (7, .setKey 3 true)] : Script)
        ++ ([(8, .load #[0xC2, 0x00]), (9, .cycle)] : Script)) ++ ([(10, .stop)] : Script) := rfl
    unfold draws
    rw [Board.draws_machine, hcalls, Machine.draws_append, Machine.draws_append,
      draws_of_load_cycle _ (by decide) rfl, Machine.draws_eq_zero (by simp),
      Machine.draws_eq_zero (by simp)]
  have hsize : Machine.inPlace.size ≤ 3584 := by decide
  obtain ⟨hreply, hboard, -, -, -, halike⟩ := running.load_erases_past hsize 20
  refine ⟨hrunning, hhalted, hreply, ?_, ?_⟩
  · rw [hboard]
    rfl
  · exact halike halted rfl (fun _ => rfl) (hrunning.trans hhalted.symm) _

end History

end Chip8
