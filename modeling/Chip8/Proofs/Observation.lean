/-
A snapshot is all of the machine that can ever be noticed.

Three things are kept on a board that no snapshot shows: what is left in
the slots above the open calls, the keys as last looked at, and the
register that a wait is for. The first is never read before it is
written, and neither is the second unless a wait is on; both are
forgotten already by the machine that the board holds
(`Board.observe_machine`). The third is read, but it is no secret: a wait
belongs to the instruction at the program counter (`Reachable.waitsHere`),
so the memory says which register it is for.

So where the snapshots agree, and the parts that a snapshot leaves out
openly, the configuration, the clock and the source of random bytes, the
machines are the same (`eq_of_snapshot`), and no script tells the boards
apart.
-/
import Chip8.Proofs.Board
import Chip8.Proofs.KeyWait

namespace Chip8

/-- What a host gets to see of a call: what it answers, what it reports,
and what the machine looks like after it. -/
structure Sight where
  reply : Reply
  events : List Event
  after : Snapshot
  deriving DecidableEq

/-- What a host gets to see of the calls of a script, in their order. -/
def Machine.observe (m : Machine) : Script → List Sight
  | [] => []
  | (now, a) :: rest =>
    let o := m.perform now a
    ⟨o.reply, o.events, o.machine.snapshot⟩ :: o.machine.observe rest

def Board.observe (b : Board) : Script → List Sight
  | [] => []
  | (now, a) :: rest =>
    let s := b.perform now a
    ⟨s.reply, s.events, s.board.snapshot⟩ :: s.board.observe rest

/-- A host cannot tell a board from the machine that it holds. -/
theorem Board.observe_machine (script : Script) :
    ∀ b : Board, b.observe script = b.machine.observe script := by
  induction script with
  | nil => intro b; rfl
  | cons call rest ih =>
      intro b
      obtain ⟨now, a⟩ := call
      have hout := b.perform_outcome now a
      rw [Machine.observe, ← hout, Board.observe, ih, ← snapshot_machine]
      rfl

/-- Of two machines that wait for a key, both for the instruction at the
program counter, the snapshot decides for which register. -/
theorem Machine.wait_eq {m m' : Machine} (hm : m.WaitsHere) (hm' : m'.WaitsHere)
    (hsnapshot : m.snapshot = m'.snapshot)
    (hseen : ∀ w w', m.keypad.wait = some w → m'.keypad.wait = some w' → w.seen = w'.seen) :
    m.keypad.wait = m'.keypad.wait := by
  have hfetch : m.fetch = m'.fetch :=
    fetch_congr (congrArg Snapshot.memory hsnapshot) (congrArg Snapshot.pc hsnapshot)
  have hwaiting : m.keypad.wait.isSome = m'.keypad.wait.isSome :=
    congrArg Snapshot.isWaiting hsnapshot
  cases hw : m.keypad.wait with
  | none =>
      rw [hw] at hwaiting
      exact (Option.isNone_iff_eq_none.mp (Option.isSome_eq_false_iff.mp hwaiting.symm)).symm
  | some w =>
      rw [hw] at hwaiting
      obtain ⟨w', hw'⟩ := Option.isSome_iff_exists.mp hwaiting.symm
      have hdec := hm w hw
      rw [hfetch, hm' w' hw'] at hdec
      injection hdec with hinstr
      injection hinstr with hasker
      rw [hw']
      obtain ⟨asker, seen⟩ := w
      obtain ⟨asker', seen'⟩ := w'
      obtain rfl : asker' = asker := hasker
      obtain rfl : seen = seen' := hseen _ _ hw hw'
      rfl

/-- Machines with the same snapshot are the same if they agree in what a
snapshot leaves out: configuration, source, clock, and the keys that a wait
has seen. -/
theorem Machine.eq_of_snapshot {m m' : Machine} (hm : m.WaitsHere) (hm' : m'.WaitsHere)
    (hsnapshot : m.snapshot = m'.snapshot) (hconfig : m.config = m'.config)
    (hrandom : m.random = m'.random) (hclock : m.clock = m'.clock)
    (hseen : ∀ w w', m.keypad.wait = some w → m'.keypad.wait = some w' → w.seen = w'.seen) :
    m = m' := by
  have hwait := wait_eq hm hm' hsnapshot hseen
  obtain ⟨_, _, _, _, _, _, _, _, _, ⟨_, _⟩, _, _⟩ := m
  obtain ⟨_, _, _, _, _, _, _, _, _, ⟨_, _⟩, _, _⟩ := m'
  simp only [snapshot, Snapshot.mk.injEq, List.reverse_inj] at hsnapshot
  obtain ⟨rfl, rfl, rfl, rfl, rfl, rfl, rfl, rfl, -, rfl⟩ := hsnapshot
  cases hconfig
  cases hrandom
  cases hclock
  cases hwait
  rfl

namespace Board

/-- A snapshot is all that matters. Let two boards that a host can come by
look the same, with the same configuration, the same random bytes to come
and the same clock, and, only if they wait for a key, with the same keys
last looked at. Then every script gets the same answers and the same
events from both, and they look the same after each of its calls; and
what it sees of them is what it sees of the machine that they hold. -/
theorem snapshot_decides {b b' : Board} (hb : b.Reachable) (hb' : b'.Reachable)
    (hsnapshot : b.snapshot = b'.snapshot) (hconfig : b.config = b'.config)
    (hrandom : b.random = b'.random) (hclock : b.clock = b'.clock)
    (hseen : b.snapshot.isWaiting = true → b.keys.seen = b'.keys.seen) (script : Script) :
    b.observe script = b'.observe script
      ∧ b.observe script = b.machine.observe script
      ∧ b'.observe script = b.machine.observe script := by
  have hmachine : b.machine = b'.machine := by
    refine Machine.eq_of_snapshot hb.machine.waitsHere hb'.machine.waitsHere ?_ hconfig hrandom
      hclock ?_
    · rw [snapshot_machine, snapshot_machine, hsnapshot]
    · intro w w' hw hw'
      obtain ⟨x, hx, rfl⟩ := Option.map_eq_some_iff.mp hw
      obtain ⟨x', hx', rfl⟩ := Option.map_eq_some_iff.mp hw'
      exact hseen (Option.isSome_iff_exists.mpr ⟨x, hx⟩)
  have hseen' : b'.observe script = b.machine.observe script := by
    rw [observe_machine, hmachine]
  exact ⟨(b.observe_machine script).trans hseen'.symm, b.observe_machine script, hseen'⟩

/-- A cycle that begins a wait takes the keys as they are for seen. -/
theorem cycle_awaitKey_begins {b : Board} {x : Reg} (hrun : b.stopped = false)
    (hdec : Instr.decode? b.fetch = some (.awaitKey x)) (hasker : b.keys.asker = none) :
    b.cycle.board = { b with keys := ⟨b.keys.down, b.keys.down, some x⟩ } := by
  have hbegin : b.awaitKey x
      = ({ b with keys := ⟨b.keys.down, b.keys.down, some x⟩ }, [.awaitingKey x]) := by
    unfold awaitKey
    rw [hasker]
    rfl
  have hexec : b.exec (.awaitKey x) = .ok (b.awaitKey x) := rfl
  rw [cycle_of_exec hrun hdec hexec, hbegin]

/-- A cycle that ends a wait leaves the keys as last looked at where they
are. -/
theorem cycle_awaitKey_ends {b : Board} {x y : Reg} {key : Key} (hrun : b.stopped = false)
    (hdec : Instr.decode? b.fetch = some (.awaitKey x)) (hasker : b.keys.asker = some y)
    (hfresh : Keys.fresh? b.keys.seen b.keys.down = some key) :
    b.cycle.board
      = { b.set y (UInt8.ofNat key.val) with
          keys := ⟨b.keys.down, b.keys.seen, none⟩, pc := b.pc + 2 } := by
  have hpoll : b.keys.poll = (some (y, key), ⟨b.keys.down, b.keys.seen, none⟩) := by
    unfold KeyLatch.poll
    rw [hasker]
    dsimp only
    rw [hfresh]
  have hexec : b.exec (.awaitKey x) = .ok (b.awaitKey x) := rfl
  rw [cycle_of_exec hrun hdec hexec]
  unfold awaitKey
  rw [hasker, if_pos Option.isSome_some, hpoll]

/-- Begin to wait while some keys are held, press one more, and then let
all of them go. -/
def pressWhile (held : List Key) (key : Key) : Script :=
  [(0, .setKeys held), (0, .cycle), (0, .setKeys (key :: held)), (0, .cycle), (0, .setKeys [])]

/-- A key that is pressed while others are held ends the wait, and the
latch keeps the others as last seen. -/
theorem run_pressWhile {b : Board} {x : Reg} (held : List Key) (key : Key)
    (hrun : b.stopped = false) (hdec : Instr.decode? b.fetch = some (.awaitKey x))
    (hasker : b.keys.asker = none)
    (hfresh : Keys.fresh? (Keys.ofList held) (Keys.ofList (key :: held)) = some key) :
    b.run (pressWhile held key)
      = { b.set x (UInt8.ofNat key.val) with
          keys := ⟨Keys.ofList [], Keys.ofList held, none⟩, pc := b.pc + 2 } := by
  have hbegin := cycle_awaitKey_begins
    (b := { b with keys := ⟨Keys.ofList held, b.keys.seen, b.keys.asker⟩ }) hrun hdec hasker
  have hend := cycle_awaitKey_ends
    (b := { b with keys := ⟨Keys.ofList (key :: held), Keys.ofList held, some x⟩ })
    hrun hdec rfl hfresh
  have hcalls : b.run (pressWhile held key)
      = ((({ b with keys := ⟨Keys.ofList held, b.keys.seen, b.keys.asker⟩ } :
          Board).cycle.board.perform 0 (.setKeys (key :: held))).board.cycle.board.perform
          0 (.setKeys [])).board := rfl
  rw [hcalls, hbegin]
  show (({ b with keys := ⟨Keys.ofList (key :: held), Keys.ofList held, some x⟩ } :
    Board).cycle.board.perform 0 (.setKeys [])).board = _
  rw [hend]
  rfl

/-- The word that is about to be run is that of the machine. -/
theorem fetch_cleared (m : Machine) : (cleared m).fetch = m.fetch := rfl

/-- A board that was just let run a program that waits for a key in V3. -/
def beforeWait : Board := cleared Machine.beforeWait

/-- Whether a key was held when the wait began is still on the board when
the wait is over, and nobody can tell. -/
theorem held_key_is_forgotten :
    (beforeWait.run (pressWhile [] 3)).snapshot = (beforeWait.run (pressWhile [5] 3)).snapshot
      ∧ (beforeWait.run (pressWhile [] 3)).keys.seen
        ≠ (beforeWait.run (pressWhile [5] 3)).keys.seen
      ∧ (beforeWait.run (pressWhile [] 3)).observe [(0, .cycle), (0, .reset)]
        = (beforeWait.run (pressWhile [5] 3)).observe [(0, .cycle), (0, .reset)] := by
  have hstart : beforeWait.Reachable := reachable_booted (by decide)
  have hmem : Machine.beforeWait.memory = Memory.ofProgram Machine.waitProgram := rfl
  have hfetch : beforeWait.fetch = Machine.beforeWait.fetch := fetch_cleared _
  have hdec : Instr.decode? beforeWait.fetch = some (.awaitKey 3) := by
    rw [hfetch]
    exact Memory.decode_ofProgram (k := 0) hmem rfl (by decide) rfl
  have hnone := run_pressWhile [] 3 rfl hdec rfl (by decide)
  have hfive := run_pressWhile [5] 3 rfl hdec rfl (by decide)
  have hsnapshot : (beforeWait.run (pressWhile [] 3)).snapshot
      = (beforeWait.run (pressWhile [5] 3)).snapshot := by
    rw [hnone, hfive]
    rfl
  refine ⟨hsnapshot, ?_, ?_⟩
  · rw [hnone, hfive]
    decide
  · refine (snapshot_decides (hstart.run _) (hstart.run _) hsnapshot ?_ ?_ ?_ ?_ _).1
    · rw [hnone, hfive]
    · rw [hnone, hfive]
    · rw [hnone, hfive]
    · rw [hnone]
      intro hwaiting
      cases hwaiting

end Board

end Chip8
