/-
No call breaks off, whatever was loaded and whatever the host does.

# Calls

Each call on a board in storage answers as it does on the board and gives
the layout of what the board becomes (`Board.perform_raw`). An opcode is
run only if a word decodes to it, and then it is an instruction that has
forgotten its bounds (`Opcode.decode?_eq`), so `Board.exec_raw` applies.

# Time

The clock alone asks something of its host. It takes the difference of
two instants, so the later call must not have the earlier instant; and it
counts ticks in 32 bits, one after the other. `Timely` is what a script
has to keep to: its instants do not decrease, and no look at the clock
finds 2^32 ticks due. That the last instant accounted for never lies
ahead of the calls is the invariant that goes with it
(`Machine.last_le`), and by induction a timely script is run to its end
(`Board.run_raw`).

# The result

`Raw.no_check_fails` puts together construction, a script, and the views
of what it leaves behind.
-/
import Chip8.Proofs.Checked.Exec
import Chip8.Proofs.Reload

namespace Chip8

open Checked

/-- An answer, with the instruction as it was decoded. -/
def Reply.raw : Reply → Raw.Reply
  | .done => .done
  | .ran i => .ran i.opcode
  | .idle => .idle
  | .failed e => .failed e

namespace Board

variable {b : Board}

-- ================================================================ calls

/-- No check of a cycle fails, and its storage comes out as the board does. -/
theorem cycle_raw (b : Board) :
    b.raw.cycle = some ((Reply.ofCycle b.cycle.reply).raw, b.cycle.board.raw) := by
  unfold Raw.cycle cycle
  rw [show b.raw.stopped = b.stopped from rfl]
  cases b.stopped with
  | true => rfl
  | false =>
      rw [show b.raw.fetch = some b.fetch from Raw.fetch_of]
      simp only [Option.bind_eq_bind, Option.bind_some, Opcode.decode?_eq]
      cases Instr.decode? b.fetch with
      | none => rfl
      | some i =>
          show (b.raw.exec i.opcode >>= fun out => _) = _
          rw [exec_raw]
          dsimp only
          cases b.exec i with
          | error fault => rfl
          | ok out => rfl

/-- No check of a reset fails. -/
theorem fresh_raw (config : Config) (random : Random.Generator) (now : Instant) :
    Raw.fresh config random now = some (cleared (Machine.fresh config random now)).raw := by
  unfold Raw.fresh
  rw [blankCells_eq]
  rfl

/-- No check of a load fails, as the size was compared with the room before
anything is copied. -/
theorem load_raw (b : Board) (now : Instant) (program : Array UInt8) :
    b.raw.loadProgram now program
      = some ((Reply.ofExcept (b.load now program).reply).raw, (b.load now program).board.raw) := by
  unfold Raw.loadProgram load
  by_cases hlong : Memory.capacity < program.size
  · rw [if_pos hlong, if_pos hlong]
    rfl
  · rw [if_neg hlong, if_neg hlong, show b.raw.config = b.config from rfl,
      show b.raw.random = b.random from rfl, fresh_raw]
    show (loadCells Memory.blank.cells program >>= fun cells => _) = _
    rw [loadCells_eq (Nat.le_of_not_lt hlong)]
    rfl

/-- No check of one interval of the timers fails, as a count is not lowered
below zero. -/
theorem tick_of {m : Machine} {c : CallSlots} {k : KeyLatch} :
    (Raw.of m c k).tick = some (Raw.of m.tick c k) := by
  unfold Raw.tick
  show (lower m.timers.delay m.config.timerStep >>= fun delay => _) = _
  rw [lower_eq]
  show (lower m.timers.sound m.config.timerStep >>= fun sound => _) = _
  rw [lower_eq]
  rfl

theorem ticks_of {m : Machine} {c : CallSlots} {k : KeyLatch} (n : Nat) :
    (List.range n).foldlM (fun (r : Raw) _ => r.tick) (Raw.of m c k)
      = some (Raw.of { m with timers := m.timers.ticks n m.config.timerStep } c k) := by
  induction n with
  | zero =>
      rw [Timers.ticks_zero]
      rfl
  | succ n ih =>
      rw [foldlM_range_succ, ih, Option.bind_some, tick_of, Timers.ticks_succ]
      rfl

/-- No check of a settling fails if the intervals that are due fit their
counter. -/
theorem settleClock_raw {horizon now : Instant} (hnow : now < horizon)
    (hlast : b.clock.last ≤ now) (hdue : b.clock.due now < 2 ^ 32) :
    b.raw.settleClock horizon now = some (b.perform now .settleClock).board.raw := by
  unfold Raw.settleClock
  show (settle horizon b.clock now >>= fun out => _) = _
  rw [settle_eq hnow hlast hdue]
  show (List.range (b.clock.due now)).foldlM (fun (r : Raw) _ => r.tick)
    (Raw.of { b.machine with clock := (b.clock.settle now).2 } b.calls b.keys) = _
  exact ticks_of _

/-- Setting a key by its number comes out on the storage as on the board. -/
theorem setKey_raw (b : Board) (code : UInt8) (isDown : Bool) :
    b.raw.setKey code isDown
      = ((Reply.ofExcept (b.setKey code isDown).reply).raw, (b.setKey code isDown).board.raw) := by
  unfold Raw.setKey setKey write
  by_cases hkey : code.toNat < 16
  · rw [dif_pos hkey, dif_pos hkey]
    rfl
  · rw [dif_neg hkey, dif_neg hkey]
    rfl

/-- No check fails where all keys are set, as a list of keys has none but
the sixteen. -/
theorem setKeys_raw (b : Board) (now : Instant) (keys : List Key) :
    b.raw.setKeys keys = some (b.perform now (.setKeys keys)).board.raw := by
  unfold Raw.setKeys
  rw [held_eq]
  simp only [Option.bind_eq_bind, Option.bind_some]
  rw [follow_eq]
  rfl

/-- Every call is answered, if the clock has not gone back and not too
many ticks are due. -/
theorem perform_raw {horizon now : Instant} (hnow : now < horizon) (hlast : b.clock.last ≤ now)
    {a : Action} (hdue : a = .settleClock → b.clock.due now < 2 ^ 32) :
    b.raw.perform horizon now a
      = some ((b.perform now a).reply.raw, (b.perform now a).board.raw) := by
  cases a with
  | load program => exact b.load_raw now program
  | loadFile path contents =>
      cases contents with
      | error problem => rfl
      | ok program => exact b.load_raw now program
  | reset =>
      show (do return (Raw.Reply.done, ← Raw.fresh b.config b.random now)) = _
      rw [fresh_raw]
      rfl
  | cycle => exact b.cycle_raw
  | tick =>
      show (do return (Raw.Reply.done, ← b.raw.tick)) = _
      rw [show b.raw.tick = _ from tick_of]
      rfl
  | settleClock =>
      show (do return (Raw.Reply.done, ← b.raw.settleClock horizon now)) = _
      rw [settleClock_raw hnow hlast (hdue rfl)]
      rfl
  | setKey code isDown => exact congrArg some (b.setKey_raw code isDown)
  | setKeys keys =>
      show (do return (Raw.Reply.done, ← b.raw.setKeys keys)) = _
      rw [b.setKeys_raw now]
      rfl
  | stop | setDelay value | setSound value => rfl

-- =============================================================== time

end Board

/-- A script that a host with a clock makes on a machine built at `start`:
its calls come one after the other, at instants that the clock can tell,
and no look at the clock finds 2^32 ticks due. -/
structure Timely (horizon start : Instant) (m : Machine) (script : Script) : Prop where
  forward : (start :: script.map Prod.fst).Pairwise (· ≤ ·)
  told : ∀ call ∈ script, call.1 < horizon
  paced : ∀ before now after, script = before ++ (now, .settleClock) :: after →
    (m.run before).clock.due now < 2 ^ 32

namespace Timely

variable {horizon start now : Instant} {m : Machine} {a : Action} {later : Script}

theorem le (h : Timely horizon start m ((now, a) :: later)) : start ≤ now :=
  List.rel_of_pairwise_cons h.forward List.mem_cons_self

theorem lt (h : Timely horizon start m ((now, a) :: later)) : now < horizon :=
  h.told (now, a) List.mem_cons_self

/-- Where a timely script settles the clock, the intervals that are due fit
their counter. -/
theorem due_lt (h : Timely horizon start m ((now, a) :: later)) (ha : a = .settleClock) :
    m.clock.due now < 2 ^ 32 := by
  subst ha
  exact h.paced [] now later rfl

/-- What comes behind the first call of a timely script is timely. -/
theorem rest (h : Timely horizon start m ((now, a) :: later)) :
    Timely horizon now (m.perform now a).machine later where
  forward := h.forward.of_cons
  told := fun call hcall => h.told call (List.mem_cons_of_mem _ hcall)
  paced := fun before poll after hsplit =>
    h.paced ((now, a) :: before) poll after (congrArg (List.cons (now, a)) hsplit)

end Timely

/-- The clock never runs ahead of the calls. -/
theorem Machine.last_le {m : Machine} {now : Instant} (h : m.clock.last ≤ now) (a : Action) :
    (m.perform now a).machine.clock.last ≤ now := by
  rcases a.kind_cases with hr | rfl | rfl | ⟨hr, hc⟩
  · rcases perform_of_restarts hr m now with hm | hm | ⟨program, hm⟩
    · rw [hm]
      exact h
    · rw [hm]
      exact Nat.le_refl now
    · rw [hm]
      exact Nat.le_refl now
  · exact h
  · rw [perform_cycle]
    rcases m.cycle_stops_or_runs with hc | ⟨i, events, -, hexec, -⟩
    · rw [hc]
      exact h
    · rw [(exec_footprint hexec).clock]
      exact h
  · cases a with
    | settleClock =>
        show m.clock.last + (now - m.clock.last) / m.clock.interval * m.clock.interval ≤ now
        exact (Nat.add_le_add_left (Nat.div_mul_le_self _ _) _).trans (Nat.add_sub_of_le h).le
    | setKey code isDown =>
        simp only [perform, setKey]
        split
        · exact h
        · exact h
    | tick | setDelay | setSound | setKeys => exact h
    | cycle => exact absurd rfl hc
    | load | loadFile | reset | stop => cases hr

namespace Board

/-- A timely script fails no check: it answers on the storage what it
answers on the machine, and leaves the storage of the board. -/
theorem run_raw {horizon : Instant} {script : Script} :
    ∀ {b : Board} {start : Instant}, b.clock.last ≤ start → Timely horizon start b.machine script →
      b.raw.run horizon script
        = some ((b.machine.replies script).map Reply.raw, (b.run script).raw) := by
  induction script with
  | nil => intro b start _ _; rfl
  | cons call rest ih =>
      intro b start hlast h
      obtain ⟨now, a⟩ := call
      have hpast : b.clock.last ≤ now := hlast.trans h.le
      have hmachine := b.perform_machine now a
      have hreply : (b.perform now a).reply = (b.machine.perform now a).reply :=
        congrArg Outcome.reply (b.perform_outcome now a)
      have hnext : (b.perform now a).board.clock.last ≤ now := by
        rw [show (b.perform now a).board.clock = (b.perform now a).board.machine.clock from rfl,
          hmachine]
        exact Machine.last_le hpast a
      have hrest := h.rest
      rw [← hmachine] at hrest
      show (b.raw.perform horizon now a >>= fun out => _) = _
      rw [perform_raw h.lt hpast h.due_lt]
      show ((b.perform now a).board.raw.run horizon rest >>= fun out => _) = _
      rw [ih hnext hrest, hmachine, hreply]
      rfl

-- =============================================================== views

/-- No check of a snapshot fails. -/
theorem snapshot_raw (b : Board) : b.raw.snapshot = some b.machine.snapshot := by
  unfold Raw.snapshot
  rw [snapshot_machine]
  have hwait : b.raw.asker.isSome = b.keys.asker.isSome := Option.isSome_map
  have hstack : slice b.raw.slots 0 b.raw.used = some (b.calls.slots.toList.take b.calls.used) :=
    if_pos ⟨Nat.zero_le _, b.calls.used_le⟩
  rw [hwait, hstack]
  rfl

/-- No check of a pixel fails, whatever the coordinates are. -/
theorem isLit_raw (b : Board) (x y : UInt8) :
    b.raw.isLit x y = some (b.machine.display.isLit x y) := by
  unfold Raw.isLit
  rw [pixelIndex_eq]
  exact Vector.getElem?_eq_getElem (Pixel.ofCoords x.toNat y.toNat).isLt

end Board

/-- No check of a pixel of a snapshot fails, whatever the coordinates are. -/
theorem Checked.pixel_eq (s : Snapshot) (x y : Nat) : pixel s x y = some (s.pixel x y) := by
  unfold pixel Snapshot.pixel
  by_cases hout : 64 ≤ x ∨ 32 ≤ y
  · rw [if_pos hout, if_neg (by omega)]
  · have hx : x < 64 := by omega
    have hy : y < 32 := by omega
    rw [if_neg hout, if_pos ⟨hx, hy⟩, product_eq (by rw [sizeBits]; omega)]
    show (sum sizeBits x (y * 64) >>= fun i => _) = _
    rw [sum_eq (by rw [sizeBits]; omega)]
    show s.display.lit[x + y * 64]? = some (s.display.lit.get (Pixel.ofCoords x y))
    have hpixel : (Pixel.ofCoords x y).val = x + y * 64 := by
      show x % 64 + y % 32 * 64 = _
      rw [Nat.mod_eq_of_lt hx, Nat.mod_eq_of_lt hy]
    rw [← hpixel]
    exact Vector.getElem?_eq_getElem (Pixel.ofCoords x y).isLt

-- ========================================================== the result

/-- No check fails.

Build a machine in any configuration, and make any calls on it, with any
programs, at instants that do not decrease and at none of which 2^32 ticks
are found due. Then no index is out of bounds, no range exceeds its array,
and no arithmetic leaves its width: neither while the machine is built,
nor in any of the calls, nor when what they leave behind is copied out or
looked at pixel by pixel. And the calls answer as they do on the machine
that checks nothing. (`horizon` stands for the first instant that is too
late for the host's clock to tell; a call cannot be made at such an
instant.) -/
theorem Raw.no_check_fails (config : Config) (entropy : Random.ChaCha.Key)
    {horizon start : Instant} {script : Script}
    (h : Timely horizon start (Machine.new config entropy start).machine script) :
    (Raw.new config entropy start).bind (fun r => r.run horizon script)
        = some (((Machine.new config entropy start).machine.replies script).map Reply.raw,
            ((Board.built config entropy start).run script).raw)
      ∧ ((Board.built config entropy start).run script).raw.snapshot
        = some ((Machine.new config entropy start).machine.run script).snapshot
      ∧ (∀ x y, ((Board.built config entropy start).run script).raw.isLit x y
        = some (((Machine.new config entropy start).machine.run script).display.isLit x y))
      ∧ ∀ x y, pixel ((Machine.new config entropy start).machine.run script).snapshot x y
        = some (((Machine.new config entropy start).machine.run script).snapshot.pixel x y) := by
  have hbuilt : Raw.new config entropy start = some (Board.built config entropy start).raw :=
    Board.fresh_raw _ _ _
  have hmachine : ((Board.built config entropy start).run script).machine
      = (Machine.new config entropy start).machine.run script := Board.run_machine script _
  refine ⟨?_, ?_, ?_, ?_⟩
  · rw [hbuilt, Option.bind_some]
    exact Board.run_raw (Nat.le_refl start) h
  · rw [Board.snapshot_raw, hmachine]
  · intro x y
    rw [Board.isLit_raw, hmachine]
  · exact Checked.pixel_eq _

/-- The machine is let run a program that runs in place, and after three
seconds the host looks at the clock and lets it run on. -/
def Raw.threeSeconds : Script :=
  [(0, .load #[0x12, 0x00]), (3000000000, .settleClock), (3000000000, .cycle)]

private theorem load_inPlace (now : Instant) :
    (Machine.new {} (Random.keyOfSeed 0) 0).machine.load now #[0x12, 0x00]
      = ⟨.ok (), Machine.loaded {} (.ofKey (Random.keyOfSeed 0)) now #[0x12, 0x00],
          [.reset, .loaded 2]⟩ := Machine.load_of_fits _ now (by decide)

private theorem threeSeconds_timely :
    Timely (2 ^ 64) 0 (Machine.new {} (Random.keyOfSeed 0) 0).machine Raw.threeSeconds where
  forward := by decide
  told := by decide
  paced := by
    intro before now after hsplit
    rcases before with _ | ⟨first, _ | ⟨second, _ | ⟨third, rest⟩⟩⟩
    all_goals
      simp [Raw.threeSeconds] at hsplit
    obtain ⟨rfl, rfl, -⟩ := hsplit
    show ((Machine.new {} (Random.keyOfSeed 0) 0).machine.load 0 #[0x12, 0x00]).machine.clock.due _
      < 2 ^ 32
    rw [load_inPlace]
    decide

private theorem threeSeconds_replies :
    (Machine.new {} (Random.keyOfSeed 0) 0).machine.replies Raw.threeSeconds
      = [.done, .done, .ran (.jump ⟨0x200, by decide⟩)] := by
  have hcalls (m : Machine) : m.replies Raw.threeSeconds
      = [.ofExcept (m.load 0 #[0x12, 0x00]).reply, .done,
          .ofCycle ((m.load 0 #[0x12, 0x00]).machine.settleClock 3000000000).machine.cycle.reply] :=
    rfl
  let m : Machine := Machine.loaded {} (.ofKey (Random.keyOfSeed 0)) 0 #[0x12, 0x00]
  have hdec : Instr.decode? (m.settleClock 3000000000).machine.fetch
      = some (.jump ⟨0x200, by decide⟩) := Memory.decode_ofProgram (k := 0) rfl rfl (by decide) rfl
  have hcycle := Machine.cycle_of_exec (m := (m.settleClock 3000000000).machine) rfl hdec rfl
  rw [hcalls, load_inPlace, hcycle]
  rfl

/-- The host's script breaks off nowhere, and ends with a jump in
place. -/
theorem Raw.threeSeconds_run :
    Timely (2 ^ 64) 0 (Machine.new {} (Random.keyOfSeed 0) 0).machine threeSeconds
      ∧ ∃ r, (Raw.new {} (Random.keyOfSeed 0) 0).bind (fun r => r.run (2 ^ 64) threeSeconds)
          = some ([.done, .done, .ran (.jump 0x200)], r) := by
  obtain ⟨hrun, -⟩ := no_check_fails {} (Random.keyOfSeed 0) threeSeconds_timely
  rw [threeSeconds_replies] at hrun
  exact ⟨threeSeconds_timely, _, hrun⟩

end Chip8
