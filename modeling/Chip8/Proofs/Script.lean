/-
Scripts: the calls that a host makes on a machine, one after the other,
each at its instant, and the machines that a host can come by at all.

# Reachability

`Reachable` holds of a machine that was just built, whatever its
configuration, and of what any call makes of a machine that it holds of.
The instants of the calls are arbitrary, and need not even increase:
nothing that is proved of every reachable machine depends on the time.
A machine built from a program file is reachable too
(`reachable_ofFile`), so there is no other door.

# Kinds of calls

An invariant of all reachable machines has to survive every call, and
the calls fall into four kinds (`Action.kind_cases`), each with its own
account of what may change:

- a call that restarts (`Action.restarts`) leaves the machine as it was
  or puts it where it starts (`perform_of_restarts`);
- a stop changes nothing but whether the machine is stopped;
- a cycle runs an instruction, or does no more than a stop
  (`cycle_stops_or_runs`);
- any other call leaves alone everything that a program works with
  (`HostFrame` in `Footprint.lean`).

# Instructions that give up

An instruction that faults gives back how far it had got. It had got
nowhere (`exec_error`): a call and a return look at the stack before they
move anything, and nothing else faults. So the machine that a faulting
cycle stops is the machine that the cycle found.
-/
import Mathlib
import Chip8.Machine.Host
import Chip8.Machine.Snapshot

namespace Chip8

-- ====================================================== kinds of calls

/-- Whether a call can put the machine back to where it starts. -/
def Action.restarts : Action → Bool
  | .load _ | .loadFile .. | .reset => true
  | _ => false

/-- Whether a call is one that a host makes all along while a program
runs: a cycle, or a call for the timers or the keys. -/
def Action.isRoutine : Action → Bool
  | .load _ | .loadFile .. | .reset | .stop => false
  | _ => true

/-- A call restarts the machine, stops it, runs a cycle of it, or is one of
the other routine calls. -/
theorem Action.kind_cases (a : Action) :
    a.restarts = true ∨ a = .stop ∨ a = .cycle ∨ (a.isRoutine = true ∧ a ≠ .cycle) := by
  cases a with
  | load | loadFile | reset => exact Or.inl rfl
  | stop => exact Or.inr (Or.inl rfl)
  | cycle => exact Or.inr (Or.inr (Or.inl rfl))
  | _ => exact Or.inr (Or.inr (Or.inr ⟨rfl, nofun⟩))

/-- The calls of a host in their order, each with its instant. -/
abbrev Script := List (Instant × Action)

namespace Machine

-- ============================================================== running

/-- Make the calls of a script one after the other. -/
def run (m : Machine) : Script → Machine
  | [] => m
  | (now, a) :: rest => (m.perform now a).machine.run rest

theorem run_nil (m : Machine) : m.run [] = m := rfl

theorem run_cons (m : Machine) (now : Instant) (a : Action) (rest : Script) :
    m.run ((now, a) :: rest) = (m.perform now a).machine.run rest := rfl

/-- A script in two parts runs the second on what the first leaves. -/
theorem run_append (first second : Script) :
    ∀ m : Machine, m.run (first ++ second) = (m.run first).run second := by
  induction first with
  | nil => intro m; rfl
  | cons call rest ih =>
      intro m
      rw [List.cons_append, run_cons, run_cons]
      exact ih _

/-- The last call of a script is made on what the others leave. -/
theorem run_concat (m : Machine) (script : Script) (now : Instant) (a : Action) :
    m.run (script ++ [(now, a)]) = ((m.run script).perform now a).machine := by
  rw [run_append]
  rfl

/-- What the calls of a script answer, in their order. -/
def replies (m : Machine) : Script → List Reply
  | [] => []
  | (now, a) :: rest => (m.perform now a).reply :: (m.perform now a).machine.replies rest

theorem replies_cons (m : Machine) (now : Instant) (a : Action) (rest : Script) :
    m.replies ((now, a) :: rest)
      = (m.perform now a).reply :: (m.perform now a).machine.replies rest := rfl

theorem perform_cycle (m : Machine) (now : Instant) :
    (m.perform now .cycle).machine = m.cycle.machine := rfl

/-- A stop sets the flag, and nothing else. -/
theorem perform_stop (m : Machine) (now : Instant) :
    (m.perform now .stop).machine = { m with stopped := true } := rfl

/-- Setting all keys touches the keypad, and nothing else. -/
theorem perform_setKeys (m : Machine) (now : Instant) (keys : List Key) :
    (m.perform now (.setKeys keys)).machine = { m with keypad := m.keypad.update keys } := rfl

-- ========================================================= reachability

/-- The machines that a host can come by. -/
inductive Reachable : Machine → Prop where
  /-- A machine that was just built. -/
  | new (config : Config) (entropy : Random.ChaCha.Key) (now : Instant) :
      Reachable (Machine.new config entropy now).machine
  /-- What a call makes of a machine. -/
  | perform {m : Machine} (now : Instant) (a : Action) :
      Reachable m → Reachable (m.perform now a).machine

/-- What a script leaves of a machine that a host can come by, a host can
come by. -/
theorem Reachable.run (script : Script) :
    ∀ {m : Machine}, m.Reachable → (m.run script).Reachable := by
  induction script with
  | nil => intro m hm; exact hm
  | cons call rest ih =>
      intro m hm
      exact ih (.perform call.1 call.2 hm)

/-- Reachable is what a script makes of a new machine. -/
theorem reachable_iff_run {m : Machine} :
    m.Reachable ↔ ∃ config entropy now script,
      m = (Machine.new config entropy now).machine.run script := by
  constructor
  · intro hm
    induction hm with
    | new config entropy now => exact ⟨config, entropy, now, [], rfl⟩
    | @perform m now a _ ih =>
        obtain ⟨config, entropy, start, script, hrun⟩ := ih
        refine ⟨config, entropy, start, script ++ [(now, a)], ?_⟩
        rw [run_concat, ← hrun]
  · rintro ⟨config, entropy, now, script, rfl⟩
    exact Reachable.run script (.new config entropy now)

/-- A machine built from a program file is reachable: it is a new one
on which the file was loaded. -/
theorem reachable_ofFile {entropy : Random.ChaCha.Key} {now : Instant} {path : String}
    {contents : Except FileProblem (Array UInt8)} {m : Machine}
    (h : ofFile entropy now path contents = .ok m) : m.Reachable := by
  have hload : m = ((Machine.new {} entropy now).machine.perform now
      (.loadFile path contents)).machine := by
    simp only [ofFile] at h
    cases hr : ((Machine.new {} entropy now).machine.loadFile now path contents).reply with
    | error e =>
        rw [hr] at h
        cases h
    | ok _ =>
        rw [hr] at h
        injection h with hm
        exact hm.symm
  rw [hload]
  exact .perform now _ (.new {} entropy now)

-- ===================================================== calls, inverted

/-- A machine that was reset and let run a program. -/
def loaded (config : Config) (random : Random.Generator) (now : Instant)
    (program : Array UInt8) : Machine :=
  { fresh config random now with memory := Memory.ofProgram program, stopped := false }

/-- A program that fits is loaded, with configuration and source kept. -/
theorem load_of_fits (m : Machine) (now : Instant) {program : Array UInt8}
    (h : program.size ≤ Memory.capacity) :
    m.load now program
      = ⟨.ok (), loaded m.config m.random now program, [.reset, .loaded program.size]⟩ := by
  unfold load
  rw [if_neg (Nat.not_lt.mpr h)]
  rfl

/-- A host can come by a machine that was just loaded. -/
theorem Reachable.loaded {m : Machine} (hm : m.Reachable) (now : Instant)
    {program : Array UInt8} (h : program.size ≤ Memory.capacity) :
    (Machine.loaded m.config m.random now program).Reachable := by
  have hload := Reachable.perform now (.load program) hm
  have heq : (m.perform now (.load program)).machine = (m.load now program).machine := rfl
  rw [heq, load_of_fits m now h] at hload
  exact hload

/-- A machine in the default configuration that was just let run a
program. -/
def booted (program : Array UInt8) : Machine :=
  loaded {} (.ofKey (Random.keyOfSeed 0)) 0 program

/-- A host can come by a machine that was just started with a program that
fits. -/
theorem reachable_booted {program : Array UInt8} (h : program.size ≤ Memory.capacity) :
    (booted program).Reachable :=
  Reachable.loaded (.new {} (Random.keyOfSeed 0) 0) 0 h

/-- A load either starts the program, or refuses it and does nothing. -/
theorem load_cases (m : Machine) (now : Instant) (program : Array UInt8) :
    m.load now program
        = ⟨.ok (), loaded m.config m.random now program, [.reset, .loaded program.size]⟩
      ∨ m.load now program = ⟨.error (.tooLarge program.size), m, []⟩ := by
  by_cases h : program.size ≤ Memory.capacity
  · exact Or.inl (load_of_fits m now h)
  · right
    unfold load
    rw [if_pos (Nat.lt_of_not_le h)]

/-- A load leaves the machine as it was, or as one that was just loaded. -/
theorem load_machine_cases (m : Machine) (now : Instant) (program : Array UInt8) :
    (m.load now program).machine = m
      ∨ (m.load now program).machine = loaded m.config m.random now program := by
  rcases m.load_cases now program with hload | hload
  · right
    rw [hload]
  · left
    rw [hload]

/-- A call that restarts leaves the machine as it was, puts it back to
where it starts, or starts a program. -/
theorem perform_of_restarts {a : Action} (h : a.restarts = true) (m : Machine)
    (now : Instant) :
    (m.perform now a).machine = m
      ∨ (m.perform now a).machine = fresh m.config m.random now
      ∨ ∃ program, (m.perform now a).machine = loaded m.config m.random now program := by
  cases a with
  | load program =>
      rcases load_machine_cases m now program with hm | hm
      · exact Or.inl hm
      · exact Or.inr (Or.inr ⟨program, hm⟩)
  | loadFile path contents =>
      cases contents with
      | error problem => exact Or.inl rfl
      | ok program =>
          rcases load_machine_cases m now program with hm | hm
          · exact Or.inl hm
          · exact Or.inr (Or.inr ⟨program, hm⟩)
  | reset => exact Or.inr (Or.inl rfl)
  | _ => cases h

-- ========================================= instructions that give up

/-- A call goes to its target while the stack has room. -/
theorem exec_call {m : Machine} {t : Target} (h : m.stack.length < stackDepth) :
    m.exec (.call t)
      = .ok ({ m with pc := t.word, stack := (m.pc + 2) :: m.stack },
          [.called t.word (m.stack.length + 1)]) := by
  simp only [exec]
  rw [if_pos h]

/-- A call gives up on a full stack, before it has changed anything. -/
theorem exec_call_of_full {m : Machine} (h : stackDepth ≤ m.stack.length) (t : Target) :
    m.exec (.call t) = .error ⟨.stackOverflow m.pc, m, []⟩ := by
  simp only [exec]
  rw [if_neg (Nat.not_lt.mpr h)]

/-- A return goes to the newest address on the stack. -/
theorem exec_ret {m : Machine} {target : UInt16} {rest : List UInt16}
    (h : m.stack = target :: rest) :
    m.exec .ret
      = .ok ({ m with pc := target, stack := rest }, [.returned target rest.length]) := by
  simp only [exec]
  rw [h]

/-- A return gives up on an empty stack, before it has changed anything. -/
theorem exec_ret_of_empty {m : Machine} (h : m.stack = []) :
    m.exec .ret = .error ⟨.stackUnderflow m.pc, m, []⟩ := by
  simp only [exec]
  rw [h]

/-- What raises a fault: a call on a full stack, or a return on an empty
one. Either finds out before it has changed or reported anything. -/
theorem exec_error_iff {m : Machine} {i : Instr} {g : Faulted Machine} :
    m.exec i = .error g ↔
      (∃ t, i = .call t ∧ stackDepth ≤ m.stack.length ∧ g = ⟨.stackOverflow m.pc, m, []⟩)
      ∨ (i = .ret ∧ m.stack = [] ∧ g = ⟨.stackUnderflow m.pc, m, []⟩) := by
  constructor
  · intro h
    cases i with
    | call t =>
        by_cases hroom : m.stack.length < stackDepth
        · rw [exec_call hroom] at h
          cases h
        · have hfull : stackDepth ≤ m.stack.length := Nat.le_of_not_lt hroom
          rw [exec_call_of_full hfull] at h
          cases h
          exact Or.inl ⟨t, rfl, hfull, rfl⟩
    | ret =>
        cases hstack : m.stack with
        | nil =>
            rw [exec_ret_of_empty hstack] at h
            cases h
            exact Or.inr ⟨rfl, rfl, rfl⟩
        | cons target rest =>
            rw [exec_ret hstack] at h
            cases h
    | _ => cases h
  · rintro (⟨t, rfl, hfull, rfl⟩ | ⟨rfl, hempty, rfl⟩)
    · exact exec_call_of_full hfull t
    · exact exec_ret_of_empty hempty

/-- An instruction that gives up has changed nothing and reported
nothing. -/
theorem exec_error {m : Machine} {i : Instr} {g : Faulted Machine} (h : m.exec i = .error g) :
    g = ⟨g.fault, m, []⟩ := by
  rcases exec_error_iff.mp h with ⟨t, -, -, rfl⟩ | ⟨-, -, rfl⟩
  · rfl
  · rfl

-- ===================================================== cycles, inverted

/-- A machine that is stopped does nothing. -/
theorem cycle_of_stopped {m : Machine} (hstop : m.stopped = true) :
    m.cycle = ⟨.ok none, m, []⟩ := by
  unfold cycle
  rw [if_pos hstop]

/-- A word that stands for no instruction halts the machine. -/
theorem cycle_of_unknown {m : Machine} (hrun : m.stopped = false)
    (hdec : Instr.decode? m.fetch = none) :
    m.cycle = ⟨.error (.unknownInstruction m.fetch m.pc), { m with stopped := true },
      [.halting (.unknownInstruction m.fetch m.pc)]⟩ := by
  unfold cycle
  rw [hrun, hdec]
  rfl

/-- An instruction that runs makes up the whole cycle. -/
theorem cycle_of_exec {m m' : Machine} {i : Instr} {events : List Event}
    (hrun : m.stopped = false) (hdec : Instr.decode? m.fetch = some i)
    (hexec : m.exec i = .ok (m', events)) : m.cycle = ⟨.ok (some i), m', events⟩ := by
  unfold cycle
  rw [hrun, hdec]
  dsimp only
  rw [hexec]
  rfl

/-- An instruction that gives up halts the machine that it has left. -/
theorem cycle_of_error {m : Machine} {i : Instr} {g : Faulted Machine}
    (hrun : m.stopped = false) (hdec : Instr.decode? m.fetch = some i)
    (hexec : m.exec i = .error g) : m.cycle = g.state.halt g.events g.fault := by
  unfold cycle
  rw [hrun, hdec]
  dsimp only
  rw [hexec]
  rfl

/-- On a fault a cycle stops the machine, reports it, and does nothing
else. -/
theorem cycle_of_fault {m : Machine} {i : Instr} {g : Faulted Machine}
    (hrun : m.stopped = false) (hdec : Instr.decode? m.fetch = some i)
    (hexec : m.exec i = .error g) :
    m.cycle = ⟨.error g.fault, { m with stopped := true }, [.halting g.fault]⟩ := by
  rw [cycle_of_error hrun hdec hexec, exec_error hexec]
  rfl

/-- What a cycle can do: nothing on a machine that is stopped, halt on a
word that stands for no instruction or on an instruction that faults, or
run the instruction. -/
theorem cycle_cases (m : Machine) :
    (m.stopped = true ∧ m.cycle = ⟨.ok none, m, []⟩)
      ∨ (m.stopped = false ∧ Instr.decode? m.fetch = none
        ∧ m.cycle = ⟨.error (.unknownInstruction m.fetch m.pc), { m with stopped := true },
            [.halting (.unknownInstruction m.fetch m.pc)]⟩)
      ∨ (∃ i g, m.stopped = false ∧ Instr.decode? m.fetch = some i ∧ m.exec i = .error g
        ∧ m.cycle = ⟨.error g.fault, { m with stopped := true }, [.halting g.fault]⟩)
      ∨ (∃ i m' events, m.stopped = false ∧ Instr.decode? m.fetch = some i
        ∧ m.exec i = .ok (m', events) ∧ m.cycle = ⟨.ok (some i), m', events⟩) := by
  cases hrun : m.stopped with
  | true => exact Or.inl ⟨rfl, cycle_of_stopped hrun⟩
  | false =>
      right
      cases hdec : Instr.decode? m.fetch with
      | none => exact Or.inl ⟨rfl, rfl, cycle_of_unknown hrun hdec⟩
      | some i =>
          right
          cases hexec : m.exec i with
          | error g => exact Or.inl ⟨i, g, rfl, rfl, hexec, cycle_of_fault hrun hdec hexec⟩
          | ok out =>
              exact Or.inr ⟨i, out.1, out.2, rfl, rfl, hexec, cycle_of_exec hrun hdec hexec⟩

/-- A cycle does no more than a stop, or it runs the instruction at the
program counter. -/
theorem cycle_stops_or_runs (m : Machine) :
    m.cycle.machine = { m with stopped := true }
      ∨ ∃ i events, Instr.decode? m.fetch = some i ∧ m.exec i = .ok (m.cycle.machine, events)
        ∧ m.cycle.reply = .ok (some i) := by
  rcases m.cycle_cases with ⟨hstop, hc⟩ | ⟨-, -, hc⟩ | ⟨i, g, -, -, -, hc⟩
    | ⟨i, m', events, -, hdec, hexec, hc⟩
  · left
    rw [hc, ← hstop]
  · left
    rw [hc]
  · left
    rw [hc]
  · right
    rw [hc]
    exact ⟨i, events, hdec, hexec, rfl⟩

/-- A cycle answers a fault if the machine runs, and either the word at
the program counter stands for no instruction or the instruction raises
that fault. -/
theorem cycle_error_iff {m : Machine} {f : Fault} :
    m.cycle.reply = .error f ↔ m.stopped = false
      ∧ ((Instr.decode? m.fetch = none ∧ f = .unknownInstruction m.fetch m.pc)
        ∨ ∃ i g, Instr.decode? m.fetch = some i ∧ m.exec i = .error g ∧ g.fault = f) := by
  constructor
  · intro h
    rcases m.cycle_cases with ⟨-, hc⟩ | ⟨hrun, hdec, hc⟩ | ⟨i, g, hrun, hdec, hexec, hc⟩
      | ⟨i, m', events, -, -, -, hc⟩
    · rw [hc] at h
      cases h
    · rw [hc] at h
      injection h with hf
      exact ⟨hrun, Or.inl ⟨hdec, hf.symm⟩⟩
    · rw [hc] at h
      injection h with hf
      exact ⟨hrun, Or.inr ⟨i, g, hdec, hexec, hf⟩⟩
    · rw [hc] at h
      cases h
  · rintro ⟨hrun, ⟨hdec, rfl⟩ | ⟨i, g, hdec, hexec, rfl⟩⟩
    · rw [cycle_of_unknown hrun hdec]
    · rw [cycle_of_fault hrun hdec hexec]

/-- The instruction that a cycle answers is the one at the program
counter, it ran, and its outcome is the outcome of the cycle. -/
theorem exec_of_cycle_reply {m : Machine} {i : Instr} (h : m.cycle.reply = .ok (some i)) :
    m.stopped = false ∧ Instr.decode? m.fetch = some i
      ∧ ∃ events, m.exec i = .ok (m.cycle.machine, events) := by
  rcases m.cycle_cases with ⟨-, hc⟩ | ⟨-, -, hc⟩ | ⟨j, f, -, -, -, hc⟩
    | ⟨j, m', events, hrun, hdec, hexec, hc⟩
  · rw [hc] at h
    cases h
  · rw [hc] at h
    cases h
  · rw [hc] at h
    cases h
  · rw [hc] at h ⊢
    cases h
    exact ⟨hrun, hdec, events, hexec⟩

end Machine

end Chip8
