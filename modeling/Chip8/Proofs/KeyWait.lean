/-
Waiting for a key: whose wait it is, and when it ends.

# Whose wait it is

While a wait is on, FX0A no longer looks at its own X: it writes the
register that the keypad remembers. That this is the same register is an
invariant over everything that a host can come by (`WaitsHere`): the
wait that is on belongs to the instruction at the program counter. Only
FX0A begins a wait, and it stays where it is when it does; a cycle in
the middle of a wait runs that very FX0A, which cannot store or jump; and
a restart ends every wait.

# When it ends

The keys that the keypad has seen are, at each cycle of a wait, exactly
the keys that were down at the cycle before (`atCycles_awaiting`). So
whatever a host does to the keys between two cycles, what counts is which
keys were up at one cycle and down at the next, and the wait ends at the
first cycle at which there is such a key (`awaitKey_trace`).
-/
import Chip8.Proofs.Footprint
import Chip8.Proofs.Memory

namespace Chip8

-- =========================================================== fresh keys

/-- A key is fresh if it is down now and was up before. -/
def Keys.Fresh (before now : Keys) (k : Key) : Prop := before.get k = false ∧ now.get k = true

/-- A key is fresh if it is down and was up. -/
theorem Keys.fresh_iff {before now : Keys} {k : Key} :
    Keys.Fresh before now k ↔ (!before.get k && now.get k) = true := by
  unfold Keys.Fresh
  simp

/-- What comes back from a look at the keys is the lowest fresh one. -/
theorem Keys.isLeast_fresh {before now : Keys} {k : Key}
    (h : Keys.fresh? before now = some k) : IsLeast {k | Keys.Fresh before now k} k := by
  obtain ⟨hk, i, hi, hik, hlow⟩ := List.find?_eq_some_iff_getElem.mp h
  refine ⟨Keys.fresh_iff.mpr hk, fun k' hk' => ?_⟩
  by_contra hlt
  have hval : i = k.val := by
    rw [← hik]
    simp
  have hlt' : k'.val < i := by
    rw [hval]
    exact Fin.lt_def.mp (not_le.mp hlt)
  have hno := hlow k'.val hlt'
  have hyes : (!before[k'] && now[k']) = true := Keys.fresh_iff.mp hk'
  simp only [List.getElem_finRange, Fin.cast_mk, Fin.eta] at hno
  rw [hyes] at hno
  cases hno

theorem Keys.not_fresh {before now : Keys} (h : Keys.fresh? before now = none) (k : Key) :
    ¬ Keys.Fresh before now k := by
  intro hk
  exact List.find?_eq_none.mp h k (List.mem_finRange k) (Keys.fresh_iff.mp hk)

theorem Keys.fresh?_eq_none {before now : Keys} (h : ∀ k, ¬ Keys.Fresh before now k) :
    Keys.fresh? before now = none :=
  List.find?_eq_none.mpr fun k _ hk => h k (Keys.fresh_iff.mpr hk)

namespace Machine

variable {m : Machine} {x : Reg}

-- ================================================ the cycles of a wait

/-- Without a wait, FX0A begins one and stays where it is. -/
theorem awaitKey_begins (h : m.keypad.wait = none) :
    m.awaitKey x
      = ({ m with keypad := ⟨m.keypad.down, some ⟨x, m.keypad.down⟩⟩ }, [.awaitingKey x]) := by
  unfold awaitKey Keypad.isWaiting
  rw [h]
  rfl

/-- Without a fresh key, a wait goes on from the keys that are down. -/
theorem awaitKey_goes_on {w : KeyWait Reg} (h : m.keypad.wait = some w)
    (hf : Keys.fresh? w.seen m.keypad.down = none) :
    m.awaitKey x
      = ({ m with keypad := ⟨m.keypad.down, some ⟨w.asker, m.keypad.down⟩⟩ }, []) := by
  have hpoll : m.keypad.poll
      = (none, ⟨m.keypad.down, some ⟨w.asker, m.keypad.down⟩⟩) := by
    unfold Keypad.poll
    rw [h]
    dsimp only
    rw [hf]
  unfold awaitKey Keypad.isWaiting
  rw [h, if_pos Option.isSome_some, hpoll]

/-- A fresh key ends a wait: it goes into the register that asked. -/
theorem awaitKey_ends {w : KeyWait Reg} {k : Key} (h : m.keypad.wait = some w)
    (hf : Keys.fresh? w.seen m.keypad.down = some k) :
    m.awaitKey x
      = ((({ m with keypad := ⟨m.keypad.down, none⟩ } : Machine).set w.asker
          (UInt8.ofNat k.val)).next, [.keyPressed w.asker k]) := by
  have hpoll : m.keypad.poll = (some (w.asker, k), ⟨m.keypad.down, none⟩) := by
    unfold Keypad.poll
    rw [h]
    dsimp only
    rw [hf]
  unfold awaitKey Keypad.isWaiting
  rw [h, if_pos Option.isSome_some, hpoll]

-- ======================================================= whose wait it is

/-- The wait that is on belongs to the instruction at the program
counter. -/
def WaitsHere (m : Machine) : Prop :=
  ∀ w, m.keypad.wait = some w → Instr.decode? m.fetch = some (.awaitKey w.asker)

/-- Where nobody waits there is nothing that could wait elsewhere. -/
theorem waitsHere_of_idle (h : m.keypad.wait = none) : m.WaitsHere := by
  intro w hw
  rw [h] at hw
  cases hw

/-- Whether a wait is that of the instruction at the pc depends on memory,
pc and wait alone. -/
theorem WaitsHere.of_eq {m' : Machine} (h : m.WaitsHere) (hmem : m'.memory = m.memory)
    (hpc : m'.pc = m.pc) (hwait : m'.keypad.wait = m.keypad.wait) : m'.WaitsHere := by
  intro w hw
  rw [fetch_congr hmem hpc]
  exact h w (hwait ▸ hw)

/-- An instruction leaves whoever waits at the pc: while a wait is on, that
is its own FX0A, which stays there or ends the wait, and no other
instruction begins one. -/
theorem exec_waitsHere {m' : Machine} {i : Instr} {events : List Event} (h : m.WaitsHere)
    (hdec : Instr.decode? m.fetch = some i) (hexec : m.exec i = .ok (m', events)) :
    m'.WaitsHere := by
  by_cases hawait : ∃ x, i = .awaitKey x
  · obtain ⟨x, rfl⟩ := hawait
    have hm' : m' = (m.awaitKey x).1 := by
      simp only [exec, Except.ok.injEq] at hexec
      rw [hexec]
    subst hm'
    cases hw : m.keypad.wait with
    | none =>
        rw [awaitKey_begins hw]
        intro w hw'
        cases hw'
        exact hdec
    | some w =>
        cases hf : Keys.fresh? w.seen m.keypad.down with
        | none =>
            rw [awaitKey_goes_on hw hf]
            intro w' hw'
            cases hw'
            exact h w hw
        | some k =>
            rw [awaitKey_ends hw hf]
            exact waitsHere_of_idle rfl
  · -- a wait that was on would have been for this instruction
    have hidle : m.keypad.wait = none := by
      cases hw : m.keypad.wait with
      | none => rfl
      | some w =>
          have hi := h w hw
          rw [hdec] at hi
          injection hi with hi
          exact absurd ⟨w.asker, hi⟩ hawait
    have hwait := (exec_footprint hexec).wait fun x hi => hawait ⟨x, hi⟩
    exact waitsHere_of_idle (hwait.trans hidle)

/-- On a machine that a host can come by, a wait is that of the instruction
at the pc. -/
theorem Reachable.waitsHere (hm : m.Reachable) : m.WaitsHere := by
  have hinv : Invariant WaitsHere := {
    fresh := fun _ _ _ => waitsHere_of_idle rfl
    loaded := fun _ _ _ _ => waitsHere_of_idle rfl
    stop := fun hm => hm.of_eq rfl rfl rfl
    host := fun hm hframe => hm.of_eq hframe.memory hframe.pc hframe.wait
    exec := exec_waitsHere }
  exact hinv.of_reachable hm

/-- A look at the keys that ends a wait reports the register that the
wait is for. -/
theorem poll_reports {w : KeyWait Reg} (hw : m.keypad.wait = some w) {y : Reg} {k : Key}
    {keypad : Keypad Reg} (h : m.keypad.poll = (some (y, k), keypad)) :
    y = w.asker ∧ Keys.fresh? w.seen m.keypad.down = some k := by
  unfold Keypad.poll at h
  rw [hw] at h
  dsimp only at h
  cases hf : Keys.fresh? w.seen m.keypad.down with
  | none =>
      rw [hf] at h
      cases h
  | some k' =>
      rw [hf] at h
      cases h
      exact ⟨rfl, rfl⟩

/-- On every machine that a host can come by, a wait that is on belongs
to the instruction at the program counter: the word there, high byte
first, is the FX0A whose X is the register that asked. So the register
that the keypad reports at the end is the X of the FX0A that a cycle is
running, and that register gets the key. -/
theorem wait_belongs_to_pc (hm : m.Reachable) {w : KeyWait Reg}
    (hw : m.keypad.wait = some w) :
    (∃ word : UInt16,
        word.toNat = 256 * (m.memory.cells.get (Cell.ofAddress m.pc)).toNat
          + (m.memory.cells.get (Cell.ofAddress (m.pc + 1))).toNat
        ∧ Instr.decode? word = some (.awaitKey w.asker))
      ∧ w.asker.val ≤ 15
      ∧ ∀ y key keypad, m.keypad.poll = (some (y, key), keypad) →
          Instr.decode? m.fetch = some (.awaitKey y)
          ∧ (m.stopped = false →
              m.cycle.reply = .ok (some (.awaitKey y))
              ∧ m.cycle.machine.get y = UInt8.ofNat key.val) := by
  have hdec := hm.waitsHere w hw
  refine ⟨⟨m.fetch, m.fetch_toNat, hdec⟩, Nat.le_of_lt_succ w.asker.isLt, ?_⟩
  intro y key keypad hpoll
  obtain ⟨rfl, hf⟩ := poll_reports hw hpoll
  refine ⟨hdec, fun hrun => ?_⟩
  have hexec : m.exec (.awaitKey w.asker) = .ok (m.awaitKey w.asker) := rfl
  rw [awaitKey_ends hw hf] at hexec
  rw [cycle_of_exec hrun hdec hexec]
  refine ⟨rfl, ?_⟩
  show (m.registers.set w.asker.val (UInt8.ofNat key.val) w.asker.isLt)[w.asker] = _
  rw [Fin.getElem_fin, Vector.getElem_set_self]

/-- A program that waits for a key in V3. -/
def waitProgram : Array UInt8 := #[0xF3, 0x0A]

def beforeWait : Machine := booted waitProgram

/-- The machine when it waits and two keys have gone down. -/
def afterPress : Machine := beforeWait.cycle.machine.setKeys [9, 5]

private theorem beforeWait_decode : Instr.decode? beforeWait.fetch = some (.awaitKey 3) :=
  Memory.decode_ofProgram (k := 0) rfl rfl (by decide) rfl

/-- Its first cycle begins the wait, with all keys up. -/
private theorem beforeWait_cycle :
    beforeWait.cycle = ⟨.ok (some (.awaitKey 3)),
      { beforeWait with keypad := ⟨Keys.allUp, some ⟨3, Keys.allUp⟩⟩ }, [.awaitingKey 3]⟩ := by
  have hexec : beforeWait.exec (.awaitKey 3) = .ok (beforeWait.awaitKey 3) := rfl
  rw [awaitKey_begins rfl] at hexec
  exact cycle_of_exec rfl beforeWait_decode hexec

private theorem afterPress_keypad :
    afterPress.keypad = ⟨Keys.ofList [9, 5], some ⟨3, Keys.allUp⟩⟩ := by
  simp only [afterPress, setKeys, Keypad.update, beforeWait_cycle]

/-- The FX0A for which V3 waits is still there when a key has come, and
the key goes into V3. -/
theorem key_goes_where_wait_began :
    afterPress.Reachable ∧ afterPress.keypad.wait = some ⟨3, Keys.allUp⟩
      ∧ Instr.decode? afterPress.fetch = some (.awaitKey 3)
      ∧ afterPress.cycle.machine.get 3 = 5 := by
  have hrun : ∀ m : Machine, m.run [(0, .cycle), (0, .setKeys [9, 5])]
      = m.cycle.machine.setKeys [9, 5] := fun _ => rfl
  have hm : afterPress.Reachable := by
    unfold afterPress
    rw [← hrun]
    exact (reachable_booted (by decide)).run _
  have hwait : afterPress.keypad.wait = some ⟨3, Keys.allUp⟩ := by
    rw [afterPress_keypad]
  have hpoll : afterPress.keypad.poll = (some (3, 5), ⟨Keys.ofList [9, 5], none⟩) := by
    rw [afterPress_keypad]
    decide
  have hstopped : afterPress.stopped = false := by
    simp only [afterPress, setKeys, beforeWait_cycle]
    rfl
  obtain ⟨-, -, hends⟩ := wait_belongs_to_pc hm hwait
  obtain ⟨hdec, hcycle⟩ := hends 3 5 _ hpoll
  exact ⟨hm, hwait, hdec, (hcycle hstopped).2⟩

-- ================================================ the cycles of a script

/-- The machines as the cycles of a script find them, in their order. -/
def atCycles (m : Machine) : Script → List Machine
  | [] => []
  | (now, a) :: rest =>
    let later := (m.perform now a).machine.atCycles rest
    match a with
    | .cycle => m :: later
    | _ => later

/-- A cycle finds the machine as the calls before it left it. -/
theorem atCycles_cons_cycle (m : Machine) (now : Instant) (rest : Script) :
    m.atCycles ((now, .cycle) :: rest) = m :: m.cycle.machine.atCycles rest := rfl

theorem atCycles_cons_of_ne {a : Action} (h : a ≠ .cycle) (m : Machine) (now : Instant)
    (rest : Script) :
    m.atCycles ((now, a) :: rest) = (m.perform now a).machine.atCycles rest := by
  rw [atCycles]
  exact h

/-- What the first cycle finds is what the host has left of the start. -/
theorem atCycles_zero {script : Script} :
    ∀ {m : Machine}, (∀ call ∈ script, call.2.isRoutine = true) →
      ∀ h : 0 < (m.atCycles script).length, HostFrame m (m.atCycles script)[0] := by
  induction script with
  | nil => intro m _ h; exact absurd h (Nat.lt_irrefl 0)
  | cons call rest ih =>
      intro m hr h
      obtain ⟨now, a⟩ := call
      by_cases hc : a = .cycle
      · subst hc
        exact HostFrame.refl m
      · have hfirst := perform_hostFrame (hr (now, a) List.mem_cons_self) hc m now
        simp only [atCycles_cons_of_ne hc] at h ⊢
        exact hfirst.trans (ih (fun call hcall => hr call (List.mem_cons_of_mem _ hcall)) h)

/-- What a cycle finds is what the host has left of what the cycle before
it came out with. -/
theorem atCycles_succ {script : Script} :
    ∀ {m : Machine}, (∀ call ∈ script, call.2.isRoutine = true) →
      ∀ (j : Nat) (h : j + 1 < (m.atCycles script).length),
        HostFrame (m.atCycles script)[j].cycle.machine (m.atCycles script)[j + 1] := by
  induction script with
  | nil => intro m _ j h; exact absurd h (Nat.not_lt_zero _)
  | cons call rest ih =>
      intro m hr j h
      obtain ⟨now, a⟩ := call
      have hrest : ∀ call ∈ rest, call.2.isRoutine = true :=
        fun call hcall => hr call (List.mem_cons_of_mem _ hcall)
      by_cases hc : a = .cycle
      · subst hc
        simp only [atCycles_cons_cycle, List.length_cons] at h ⊢
        cases j with
        | zero => exact atCycles_zero hrest (Nat.lt_of_succ_lt_succ h)
        | succ j => exact ih hrest j (Nat.lt_of_succ_lt_succ h)
      · simp only [atCycles_cons_of_ne hc] at h ⊢
        exact ih hrest j h

-- ================================================= the course of a wait

/-- A key is fresh at a cycle if it is down there and was up at the cycle
before. No key is fresh at the first cycle. -/
def FreshAt (ms : List Machine) : Nat → Key → Prop
  | 0, _ => False
  | j + 1, k => ∃ h : j + 1 < ms.length, Keys.Fresh ms[j].keypad.down ms[j + 1].keypad.down k

/-- What a cycle that is spent on waiting leaves alone. Registers are
left out, as the last such cycle writes one. -/
structure AwaitFrame (m m' : Machine) : Prop where
  memory : m'.memory = m.memory
  index : m'.index = m.index
  stack : m'.stack = m.stack
  display : m'.display = m.display
  timers : m'.timers = m.timers

/-- The wait as the `j`-th cycle finds it: none at the first, and after
that one that has seen the keys of the cycle before. -/
def waitAt (x : Reg) (ms : List Machine) : Nat → Option (KeyWait Reg)
  | 0 => none
  | j + 1 => ms[j]?.map fun m => ⟨x, m.keypad.down⟩

/-- After a cycle the wait has seen the keys of that cycle. -/
theorem waitAt_succ {ms : List Machine} {j : Nat} (h : j < ms.length) :
    waitAt x ms (j + 1) = some ⟨x, ms[j].keypad.down⟩ := by
  rw [waitAt, List.getElem?_eq_getElem h]
  rfl

/-- A cycle that finds the wait where `waitAt` has it, and no fresh key,
leaves the wait as the next cycle is to find it, and all else alone. -/
private theorem cycle_goes_on {ms : List Machine} {j : Nat} (hj : j < ms.length)
    (hrun : ms[j].stopped = false) (hdec : Instr.decode? ms[j].fetch = some (.awaitKey x))
    (hwait : ms[j].keypad.wait = waitAt x ms j) (hnone : ∀ k, ¬ FreshAt ms j k) :
    ms[j].cycle.reply = .ok (some (.awaitKey x))
      ∧ ms[j].cycle.machine
        = { ms[j] with keypad := ⟨ms[j].keypad.down, waitAt x ms (j + 1)⟩ } := by
  have hexec : ms[j].exec (.awaitKey x) = .ok (ms[j].awaitKey x) := rfl
  rw [waitAt_succ hj]
  cases j with
  | zero =>
      rw [awaitKey_begins hwait] at hexec
      rw [cycle_of_exec hrun hdec hexec]
      exact ⟨rfl, rfl⟩
  | succ i =>
      rw [waitAt_succ (Nat.lt_of_succ_lt hj)] at hwait
      have hfresh : Keys.fresh? ms[i].keypad.down ms[i + 1].keypad.down = none :=
        Keys.fresh?_eq_none fun k hk => hnone k ⟨hj, hk⟩
      rw [awaitKey_goes_on hwait hfresh] at hexec
      rw [cycle_of_exec hrun hdec hexec]
      exact ⟨rfl, rfl⟩

/-- A cycle that finds the wait where `waitAt` has it, and a fresh key,
gives the lowest such key to the register that asked, and goes on. -/
private theorem cycle_ends {ms : List Machine} {j : Nat} (hj : j < ms.length)
    (hrun : ms[j].stopped = false) (hdec : Instr.decode? ms[j].fetch = some (.awaitKey x))
    (hwait : ms[j].keypad.wait = waitAt x ms j) (hsome : ∃ k, FreshAt ms j k) :
    ∃ key, IsLeast {k | FreshAt ms j k} key
      ∧ ms[j].cycle.reply = .ok (some (.awaitKey x))
      ∧ ms[j].cycle.machine
        = (({ ms[j] with keypad := ⟨ms[j].keypad.down, none⟩ } : Machine).set x
            (UInt8.ofNat key.val)).next := by
  cases j with
  | zero =>
      obtain ⟨k, hk⟩ := hsome
      cases hk
  | succ i =>
      rw [waitAt_succ (Nat.lt_of_succ_lt hj)] at hwait
      have hset : {k | FreshAt ms (i + 1) k}
          = {k | Keys.Fresh ms[i].keypad.down ms[i + 1].keypad.down k} :=
        Set.ext fun k => ⟨fun hk => hk.2, fun hk => ⟨hj, hk⟩⟩
      cases hf : Keys.fresh? ms[i].keypad.down ms[i + 1].keypad.down with
      | none =>
          obtain ⟨k, hk⟩ := hsome
          exact absurd hk.2 (Keys.not_fresh hf k)
      | some key =>
          have hexec : ms[i + 1].exec (.awaitKey x) = .ok (ms[i + 1].awaitKey x) := rfl
          rw [awaitKey_ends hwait hf] at hexec
          rw [cycle_of_exec hrun hdec hexec, hset]
          exact ⟨key, Keys.isLeast_fresh hf, rfl, rfl⟩

/-- As long as no key was fresh, the next cycle finds what the host has
left of the start, with a wait that has seen the keys of the cycle
before. -/
theorem atCycles_awaiting {script : Script} (hrun : m.stopped = false)
    (hidle : m.keypad.wait = none) (hdec : Instr.decode? m.fetch = some (.awaitKey x))
    (hr : ∀ call ∈ script, call.2.isRoutine = true) (j : Nat)
    (h : j < (m.atCycles script).length)
    (hnone : ∀ i < j, ∀ k, ¬ FreshAt (m.atCycles script) i k) :
    HostFrame { m with keypad := ⟨m.keypad.down, waitAt x (m.atCycles script) j⟩ }
      (m.atCycles script)[j] := by
  induction j with
  | zero =>
      have hstart : { m with keypad := ⟨m.keypad.down, none⟩ } = m := by
        rw [← hidle]
      rw [waitAt, hstart]
      exact atCycles_zero hr h
  | succ j ih =>
      have hj : j < (m.atCycles script).length := Nat.lt_of_succ_lt h
      have hframe := ih hj fun i hi => hnone i (Nat.lt_succ_of_lt hi)
      have hdec' : Instr.decode? (m.atCycles script)[j].fetch = some (.awaitKey x) := by
        rw [fetch_congr hframe.memory hframe.pc]
        exact hdec
      obtain ⟨-, hcycle⟩ := cycle_goes_on hj (hframe.stopped.trans hrun) hdec' hframe.wait
        (hnone j (Nat.lt_succ_self j))
      -- the keys of this cycle are what the wait has seen at the next
      have hhost := atCycles_succ hr j h
      rw [hcycle] at hhost
      exact (hframe.with_wait _ _ _).trans hhost

/-- FX0A waits for the first fresh key.

Let a machine that runs be at an FX0A that has not begun to wait, and let
a host make any calls but a load, a reset or a stop.

- As long as no key was fresh, up to a cycle and at it, that cycle is
  spent on the FX0A, and the machine goes on waiting where it was.
- The first cycle at which a key is fresh is spent on the FX0A as well;
  VX gets the lowest fresh key, and the machine goes on behind the FX0A.

Neither kind of cycle changes anything that a program could see
otherwise. -/
theorem awaitKey_trace {script : Script} (hrun : m.stopped = false)
    (hidle : m.keypad.isWaiting = false)
    (hdec : Instr.decode? m.fetch = some (.awaitKey x))
    (hr : ∀ call ∈ script, call.2.isRoutine = true) (j : Nat)
    (h : j < (m.atCycles script).length)
    (hnone : ∀ i < j, ∀ k, ¬ FreshAt (m.atCycles script) i k) :
    (m.atCycles script)[j].cycle.reply = .ok (some (.awaitKey x))
      ∧ (m.atCycles script)[j].pc = m.pc
      ∧ (m.atCycles script)[j].registers = m.registers
      ∧ AwaitFrame (m.atCycles script)[j] (m.atCycles script)[j].cycle.machine
      ∧ ((∀ k, ¬ FreshAt (m.atCycles script) j k) →
          (m.atCycles script)[j].cycle.machine.pc = m.pc
          ∧ (m.atCycles script)[j].cycle.machine.registers = m.registers
          ∧ (m.atCycles script)[j].cycle.machine.keypad.isWaiting = true)
      ∧ ((∃ k, FreshAt (m.atCycles script) j k) →
          ∃ key, IsLeast {k | FreshAt (m.atCycles script) j k} key
            ∧ (m.atCycles script)[j].cycle.machine.pc = m.pc + 2
            ∧ (m.atCycles script)[j].cycle.machine.registers
              = m.registers.set x.val (UInt8.ofNat key.val) x.isLt
            ∧ (m.atCycles script)[j].cycle.machine.keypad.isWaiting = false) := by
  have hidle' : m.keypad.wait = none := by
    unfold Keypad.isWaiting at hidle
    simpa using hidle
  have hframe := atCycles_awaiting hrun hidle' hdec hr j h hnone
  generalize m.atCycles script = ms at *
  have hrun' : ms[j].stopped = false := hframe.stopped.trans hrun
  have hdec' : Instr.decode? ms[j].fetch = some (.awaitKey x) := by
    rw [fetch_congr hframe.memory hframe.pc]
    exact hdec
  have hwait : ms[j].keypad.wait = waitAt x ms j := hframe.wait
  by_cases hfresh : ∃ k, FreshAt ms j k
  · obtain ⟨key, hleast, hreply, hcycle⟩ := cycle_ends h hrun' hdec' hwait hfresh
    rw [hcycle]
    refine ⟨hreply, hframe.pc, hframe.registers, ⟨rfl, rfl, rfl, rfl, rfl⟩,
      fun hno => absurd hfresh (not_exists.mpr hno), fun _ => ⟨key, hleast, ?_, ?_, rfl⟩⟩
    · show ms[j].pc + 2 = m.pc + 2
      rw [hframe.pc]
    · show ms[j].registers.set x.val _ x.isLt = _
      rw [hframe.registers]
  · obtain ⟨hreply, hcycle⟩ := cycle_goes_on h hrun' hdec' hwait (not_exists.mp hfresh)
    rw [hcycle]
    refine ⟨hreply, hframe.pc, hframe.registers, ⟨rfl, rfl, rfl, rfl, rfl⟩, fun _ => ?_,
      fun hyes => absurd hyes hfresh⟩
    refine ⟨hframe.pc, hframe.registers, ?_⟩
    rw [waitAt_succ h]
    rfl

/-- Two cycles, between which two keys go down. -/
def pressTwo : Script := [(0, .cycle), (0, .setKeys [9, 5]), (0, .cycle)]

/-- Of the two keys V3 gets the lower. -/
theorem lower_of_two_keys_ends_wait :
    beforeWait.cycle.machine.keypad.isWaiting = true
      ∧ beforeWait.cycle.machine.pc = 0x200
      ∧ afterPress.cycle.reply = .ok (some (.awaitKey 3))
      ∧ afterPress.cycle.machine.registers = beforeWait.registers.set 3 5
      ∧ afterPress.cycle.machine.pc = 0x202 := by
  have hmachines : ∀ m : Machine, m.atCycles pressTwo
      = [m, m.cycle.machine.setKeys [9, 5]] := fun _ => rfl
  have hroutine : ∀ call ∈ pressTwo, call.2.isRoutine = true := by
    simp [pressTwo, Action.isRoutine]
  have htrace := awaitKey_trace (m := beforeWait) rfl rfl beforeWait_decode hroutine
  rw [hmachines beforeWait, ← afterPress] at htrace
  have hfresh : ∀ k, FreshAt [beforeWait, afterPress] 1 k
      ↔ (!Keys.allUp.get k && (Keys.ofList [9, 5]).get k) = true :=
    fun k => ⟨fun hk => Keys.fresh_iff.mp hk.2, fun hk => ⟨by simp, Keys.fresh_iff.mpr hk⟩⟩
  have hleast : ∀ k : Key, (!Keys.allUp.get k && (Keys.ofList [9, 5]).get k) = true → 5 ≤ k := by
    decide
  have hfive : FreshAt [beforeWait, afterPress] 1 5 := (hfresh 5).mpr (by decide)
  obtain ⟨-, -, -, -, hwaits, -⟩ := htrace 0 (by simp) nofun
  obtain ⟨hpc, -, hwaiting⟩ := hwaits nofun
  have hnone : ∀ i < 1, ∀ k, ¬ FreshAt [beforeWait, afterPress] i k := by
    intro i hi
    obtain rfl : i = 0 := by omega
    exact nofun
  obtain ⟨hreply, -, -, -, -, hends⟩ := htrace 1 (by simp) hnone
  obtain ⟨key, hkey, hpc', hregs, -⟩ := hends ⟨5, hfive⟩
  obtain rfl : key = 5 := le_antisymm (hkey.2 hfive) (hleast key ((hfresh key).mp hkey.1))
  simp only [List.getElem_cons_zero, List.getElem_cons_succ] at hwaiting hpc hreply hregs hpc'
  exact ⟨hwaiting, hpc, hreply, hregs, hpc'⟩

end Machine

end Chip8
