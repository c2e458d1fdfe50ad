/-
Running a program without a window comes to what its machine does.

# The world

A run reads one file, takes one key of random bytes, and looks at the
clock again and again. A world (`World`) has all of them ready: what is
in every file, the key, and the readings of the clock in the order in
which they will be asked for. So a run in a world ends in one way
(`World.exit`), and a host that makes calls on a machine can do so with
the same file, key and readings (`World.machine`).

The operating system hands over a command line as words of bytes, the
program's own name first. They have to be texts: a word that is none is
not refused, the run breaks off over it before it has begun
(`World.ends`).

# The report

An end that reports an error says which one: the line is read back by
`Error.Says`, and no line reports two errors (`Exit.Reports.injective`).

# The loop

The loop ends early for two reasons, an error and a machine that has
stopped, but only the first ever happens. A load sets the machine
running, and a cycle that does not fail leaves it running, as the look
at the clock does (`World.running`). So until a cycle fails every cycle
runs an instruction, and the loop and the host go in step
(`World.runCycles_of_ran`).
-/
import Chip8.Headless
import Chip8.Proofs.Latch
import Chip8.Proofs.Records

namespace Chip8.Headless

-- ========================================================= command line

/-- A text is a number of cycles: digits, perhaps behind a plus sign, that
make a number of 64 bits. -/
def IsCount (s : String) (n : Nat) : Prop :=
  ∃ sign digits, s.toList = sign ++ digits ∧ sign ∈ [[], ['+']] ∧ digits ≠ []
    ∧ (∀ c ∈ digits, c.isDigit = true) ∧ n = Nat.ofDigitChars 10 digits 0 ∧ n < 2 ^ 64

/-- The command lines that make sense: a program, and perhaps for how many
cycles it is run. -/
inductive Asks : List String → String → Nat → Prop where
  | alone (path : String) : Asks [path] path 1000
  | counted (path : String) {count : String} {n : Nat} : IsCount count n → Asks [path, count] path n

/-- One plus sign is taken off the front of a text, if there is one, and
all of the rest has to be digits. -/
theorem parseCount?_eq {s : String} {sign digits : List Char} (hs : s.toList = sign ++ digits)
    (hsign : sign = ['+'] ∨ sign = [] ∧ digits.head? ≠ some '+') :
    parseCount? s
      = if digits ≠ [] ∧ digits.all Char.isDigit then
          if Nat.ofDigitChars 10 digits 0 < UInt64.size then some (Nat.ofDigitChars 10 digits 0)
          else none
        else none := by
  unfold parseCount?
  rw [hs]
  rcases hsign with rfl | ⟨rfl, hhead⟩
  · rfl
  · cases digits with
    | nil => rfl
    | cons c digits =>
        have hc : c ≠ '+' := by
          rintro rfl
          exact hhead rfl
        simp [hc]

/-- A text has a plus sign in front of the rest, or none at all. -/
theorem exists_sign (cs : List Char) :
    ∃ sign digits, cs = sign ++ digits ∧ (sign = ['+'] ∨ sign = [] ∧ digits.head? ≠ some '+') := by
  by_cases h : cs.head? = some '+'
  · obtain ⟨digits, rfl⟩ := List.head?_eq_some_iff.mp h
    exact ⟨['+'], digits, rfl, Or.inl rfl⟩
  · exact ⟨[], cs, rfl, Or.inr ⟨rfl, h⟩⟩

/-- A word is read as a count if it is one as they are written. -/
theorem parseCount?_eq_some_iff {s : String} {n : Nat} : parseCount? s = some n ↔ IsCount s n := by
  constructor
  · intro h
    obtain ⟨sign, digits, hs, hsign⟩ := exists_sign s.toList
    rw [parseCount?_eq hs hsign] at h
    split at h
    · next hdigits =>
        split at h
        · next hlt =>
            cases h
            refine ⟨sign, digits, hs, ?_, hdigits.1, List.all_eq_true.mp hdigits.2, rfl, hlt⟩
            rcases hsign with rfl | ⟨rfl, -⟩
            · exact List.mem_cons_of_mem _ List.mem_cons_self
            · exact List.mem_cons_self
        · cases h
    · cases h
  · intro h
    obtain ⟨sign, digits, hs, hsign, hne, hdigit, rfl, hlt⟩ := h
    have hunsigned : digits.head? ≠ some '+' := by
      intro hhead
      obtain ⟨rest, rfl⟩ := List.head?_eq_some_iff.mp hhead
      exact absurd (hdigit '+' List.mem_cons_self) (by decide)
    have hsign : sign = ['+'] ∨ sign = [] ∧ digits.head? ≠ some '+' := by
      rcases List.mem_cons.mp hsign with rfl | hplus
      · exact Or.inr ⟨rfl, hunsigned⟩
      · exact Or.inl (List.mem_singleton.mp hplus)
    rw [parseCount?_eq hs hsign, if_pos ⟨hne, List.all_eq_true.mpr hdigit⟩]
    exact if_pos hlt

/-- Arguments are understood as a command if they ask for it. -/
theorem ofArgs?_eq_some_iff {args : List String} {path : String} {n : Nat} :
    Command.ofArgs? args = some ⟨path, n⟩ ↔ Asks args path n := by
  constructor
  · intro h
    unfold Command.ofArgs? at h
    split at h
    · cases h
      exact .alone path
    · obtain ⟨m, hm, hcommand⟩ := Option.map_eq_some_iff.mp h
      cases hcommand
      exact .counted path (parseCount?_eq_some_iff.mp hm)
    · cases h
  · intro h
    cases h with
    | alone => rfl
    | counted _ hcount =>
        show (parseCount? _).map _ = _
        rw [parseCount?_eq_some_iff.mpr hcount]
        rfl

/-- The end of a run that comes to a machine, or to an error. -/
def Exit.ofResult : Except Error Machine → Exit
  | .error e => .failed e
  | .ok m => .shown m

/-- An end that reports an error: exit code 1, no display, and one line
that says the error. -/
structure Exit.Reports (x : Exit) (e : Error) : Prop where
  code : x.code = 1
  output : x.output = ""
  errors : ∃ text, e.Says text ∧ x.errors = ["Error: " ++ text]

/-- A failed exit reports the error that it failed with. -/
theorem Exit.reports_failed (e : Error) : (Exit.failed e).Reports e where
  code := rfl
  output := rfl
  errors := ⟨e.record, Error.says_iff.mpr rfl, rfl⟩

/-- No end reports two errors. -/
theorem Exit.Reports.injective {x : Exit} {e e' : Error} (h : x.Reports e) (h' : x.Reports e') :
    e = e' := by
  obtain ⟨text, hsays, htext⟩ := h.errors
  obtain ⟨text', hsays', htext'⟩ := h'.errors
  rw [htext] at htext'
  injection htext' with hline _
  have hchars := congrArg String.toList hline
  rw [String.toList_append, String.toList_append] at hchars
  exact hsays.injective hsays' (List.append_cancel_left hchars)

-- ============================================================ the words

/-- A text survives being encoded and decoded. -/
theorem fromUTF8?_toUTF8 (s : String) : String.fromUTF8? s.toUTF8 = some s :=
  dif_pos s.isValidUTF8

/-- Only bytes that are not valid UTF-8 are no text. -/
theorem fromUTF8?_eq_none_iff {word : ByteArray} :
    String.fromUTF8? word = none ↔ ¬ word.IsValidUTF8 := by
  unfold String.fromUTF8?
  split
  next hvalid => exact ⟨nofun, fun h => absurd hvalid h⟩
  next hinvalid => exact ⟨fun _ => hinvalid, fun _ => rfl⟩

/-- What texts a list of words spells. -/
theorem mapM_toUTF8 (texts : List String) :
    (texts.map String.toUTF8).mapM String.fromUTF8? = some texts := by
  induction texts with
  | nil => rfl
  | cons text rest ih =>
      rw [List.map_cons, List.mapM_cons, fromUTF8?_toUTF8, ih]
      rfl

/-- Words spell no texts if one of them is not a text. -/
theorem mapM_eq_none_iff {words : List ByteArray} :
    words.mapM String.fromUTF8? = none ↔ ∃ word ∈ words, ¬ word.IsValidUTF8 := by
  induction words with
  | nil => simp
  | cons word rest ih =>
      rw [List.mapM_cons, List.exists_mem_cons_iff, ← ih, ← fromUTF8?_eq_none_iff]
      cases String.fromUTF8? word with
      | none => simp
      | some text =>
          cases rest.mapM String.fromUTF8? with
          | none => simp
          | some texts => simp

-- ============================================================ the world

/-- What the operating system has to offer to a run. -/
structure World where
  files : String → Except FileProblem (Array UInt8)
  entropy : Random.ChaCha.Key
  clock : Nat → Instant

namespace World

/-- Look at the clock. Every look finds the next reading. -/
def now (w : World) : StateM Nat Instant := modifyGet fun i => (w.clock i, i + 1)

/-- How a run in a world ends. -/
def exit (w : World) (args : List String) : Exit :=
  ((run (fun path => pure (w.files path)) w.now (pure w.entropy) args).run 0).run.1

/-- How a run ends that is handed these words. The first is the program's
own name. The run breaks off if not all of them are texts. -/
def ends (w : World) (words : List ByteArray) : Option Exit :=
  (words.mapM String.fromUTF8?).map fun texts => w.exit texts.tail

/-- The machine of a host that loads the file into a machine in the
default configuration, and then makes so many cycles, each followed by a
look at the clock. -/
def machine (w : World) (path : String) : Nat → Machine
  | 0 => ((Machine.new {} w.entropy (w.clock 0)).machine.perform (w.clock 0)
      (.loadFile path (w.files path))).machine
  | i + 1 => (((w.machine path i).perform (w.clock (i + 1)) .cycle).machine.perform
      (w.clock (i + 1)) .settleClock).machine

/-- What the next cycle after so many answers. -/
def answer (w : World) (path : String) (i : Nat) : Reply :=
  ((w.machine path i).perform (w.clock (i + 1)) .cycle).reply

/-- There is a file, and it fits. -/
def Loads (w : World) (path : String) : Prop :=
  ∃ program, w.files path = .ok program ∧ program.size ≤ 3584

/-- None of so many cycles fails. -/
def Survives (w : World) (path : String) (n : Nat) : Prop :=
  ∀ i < n, ∀ e, w.answer path i ≠ .failed e

variable {w : World} {path : String} {i k n : Nat}

-- ============================================================= the loop

theorem machine_succ (w : World) (path : String) (i : Nat) :
    w.machine path (i + 1)
      = ((w.machine path i).cycle.machine.settleClock (w.clock (i + 1))).machine := rfl

theorem answer_eq (w : World) (path : String) (i : Nat) :
    w.answer path i = .ofCycle (w.machine path i).cycle.reply := rfl

/-- Before the first cycle the machine is one that was just loaded. -/
theorem machine_zero {program : Array UInt8} (hfile : w.files path = .ok program)
    (hsize : program.size ≤ 3584) :
    w.machine path 0 = Machine.loaded {} (.ofKey w.entropy) (w.clock 0) program := by
  show ((Machine.new {} w.entropy (w.clock 0)).machine.loadFile (w.clock 0) path
    (w.files path)).machine = _
  rw [hfile]
  show ((Machine.new {} w.entropy (w.clock 0)).machine.load (w.clock 0) program).machine = _
  rw [Machine.load_of_fits _ _ hsize]
  rfl

/-- Until a cycle fails the machine runs. -/
theorem running (hload : w.Loads path) (h : w.Survives path i) :
    (w.machine path i).stopped = false := by
  induction i with
  | zero =>
      obtain ⟨program, hfile, hsize⟩ := hload
      rw [machine_zero hfile hsize]
      rfl
  | succ i ih =>
      have hrun := ih fun j hj => h j (Nat.lt_succ_of_lt hj)
      have hfaults : Action.faults .cycle (w.answer path i) = false := by
        cases hreply : w.answer path i with
        | failed e => exact absurd hreply (h i (Nat.lt_succ_self i) e)
        | _ => rfl
      -- the look at the clock changes timers only, so the cycle decides
      have hcycle : ((w.machine path i).perform (w.clock (i + 1)) .cycle).machine.stopped
          = false := by
        rw [Machine.perform_stopped, hrun]
        show (Action.faults .cycle (w.answer path i) || _) = false
        rw [hfaults]
        rfl
      exact hcycle

/-- A cycle that is reached runs an instruction or fails; it never finds
the machine stopped. -/
theorem answer_cases (hload : w.Loads path) (h : w.Survives path i) :
    (∃ instr, w.answer path i = .ran instr) ∨ ∃ e, w.answer path i = .failed e := by
  have hrun := running hload h
  rcases (w.machine path i).cycle_cases with ⟨hstop, -⟩ | ⟨-, -, hc⟩ | ⟨_, f, -, -, -, hc⟩
    | ⟨instr, _, _, -, -, -, hc⟩
  · rw [hrun] at hstop
    cases hstop
  · rw [answer_eq, hc]
    exact Or.inr ⟨_, rfl⟩
  · rw [answer_eq, hc]
    exact Or.inr ⟨_, rfl⟩
  · rw [answer_eq, hc]
    exact Or.inl ⟨instr, rfl⟩

/-- While no cycle has failed the machine is not stopped, so the next is
not idle. -/
theorem answer_ne_idle (hload : w.Loads path) (h : w.Survives path i) :
    w.answer path i ≠ .idle := by
  intro hidle
  rcases answer_cases hload h with ⟨instr, hran⟩ | ⟨e, hfailed⟩
  · rw [hidle] at hran
    cases hran
  · rw [hidle] at hfailed
    cases hfailed

/-- Behind a cycle that ran something the loop goes on, with the clock read
once more. -/
theorem runCycles_of_ran {instr : Instr} (h : w.answer path i = .ran instr) :
    runCycles w.now (k + 1) (w.machine path i) (i + 1)
      = runCycles w.now k (w.machine path (i + 1)) (i + 2) := by
  have hreply : (w.machine path i).cycle.reply = .ok (some instr) := Reply.ofCycle_injective h
  rw [machine_succ, runCycles]
  generalize (w.machine path i).cycle = outcome at hreply
  obtain ⟨reply, m, events⟩ := outcome
  cases hreply
  rfl

/-- The loop breaks off at a cycle that fails. -/
theorem runCycles_of_failed {e : Error} (h : w.answer path i = .failed e) :
    runCycles w.now (k + 1) (w.machine path i) (i + 1) = (.error e, i + 1) := by
  rw [answer_eq] at h
  rw [runCycles]
  generalize (w.machine path i).cycle = outcome at h
  obtain ⟨f | _ | instr, m, events⟩ := outcome
  · cases h
    rfl
  · cases h
  · cases h

/-- The loop and the host go in step until a cycle fails, whatever is left
of the count. -/
theorem runCycles_of_survives (hload : w.Loads path) (h : w.Survives path i) :
    runCycles w.now (i + k) (w.machine path 0) 1
      = runCycles w.now k (w.machine path i) (i + 1) := by
  induction i generalizing k with
  | zero => rw [Nat.zero_add]
  | succ i ih =>
      have hbefore : w.Survives path i := fun j hj => h j (Nat.lt_succ_of_lt hj)
      -- the round that is made now is the first of what is left behind the others
      have hsplit : i + 1 + k = i + (k + 1) := by omega
      rw [hsplit, ih hbefore]
      rcases answer_cases hload hbefore with ⟨instr, hran⟩ | ⟨e, hfailed⟩
      · exact runCycles_of_ran hran
      · exact absurd hfailed (h i (Nat.lt_succ_self i) e)

-- ============================================================== the ends

/-- A command line that makes no sense is answered by how to use the
program. -/
theorem exit_of_not_asks {args : List String} (h : ¬ ∃ path n, Asks args path n) :
    w.exit args = .usage := by
  have hnone : Command.ofArgs? args = none := by
    cases hargs : Command.ofArgs? args with
    | none => rfl
    | some command => exact absurd ⟨_, _, ofArgs?_eq_some_iff.mp hargs⟩ h
  unfold exit run
  rw [hnone]
  rfl

theorem run_now (w : World) (i : Nat) : w.now.run i = pure (w.clock i, i + 1) := rfl

/-- A command line that makes sense is carried out: the file is loaded, and
the loop goes on from there. -/
theorem exit_of_asks {args : List String} (hargs : Asks args path n) :
    w.exit args
      = .ofResult ((Machine.ofFile w.entropy (w.clock 0) path (w.files path)).bind fun m =>
          (runCycles w.now n m 1).1) := by
  have hrun : w.exit args
      = ((Command.run (fun path => pure (w.files path)) w.now (pure w.entropy) ⟨path, n⟩).run
          0).run.1 := by
    unfold exit run
    rw [ofArgs?_eq_some_iff.mpr hargs]
  rw [hrun]
  unfold Command.run
  simp only [pure_bind, StateT.run_bind, run_now]
  cases Machine.ofFile w.entropy (w.clock 0) path (w.files path) with
  | error e => rfl
  | ok m =>
      rw [StateT.run_bind]
      show _ = Exit.ofResult (StateT.run (runCycles w.now n m) (0 + 1)).1
      rcases StateT.run (runCycles w.now n m) (0 + 1) with ⟨_ | _, _⟩
      · rfl
      · rfl

/-- A file that cannot be read is reported, and its path with it. -/
theorem exit_of_unreadable {args : List String} (hargs : Asks args path n)
    {problem : FileProblem} (hfile : w.files path = .error problem) :
    w.exit args = .failed (.unreadable path problem) := by
  have hofFile : Machine.ofFile w.entropy (w.clock 0) path (w.files path)
      = .error (.unreadable path problem) := by
    rw [hfile]
    rfl
  rw [exit_of_asks hargs, hofFile]
  rfl

/-- A program that does not fit is reported with its size. -/
theorem exit_of_tooLarge {args : List String} (hargs : Asks args path n) {program : Array UInt8}
    (hfile : w.files path = .ok program) (hsize : 3584 < program.size) :
    w.exit args = .failed (.tooLarge program.size) := by
  have hload (m : Machine) : m.load (w.clock 0) program = ⟨.error (.tooLarge program.size), m, []⟩ :=
    if_pos hsize
  have hofFile : Machine.ofFile w.entropy (w.clock 0) path (w.files path)
      = .error (.tooLarge program.size) := by
    unfold Machine.ofFile Machine.loadFile
    rw [hfile]
    dsimp only
    rw [hload]
    rfl
  rw [exit_of_asks hargs, hofFile]
  rfl

/-- If the program fits, the exit is the one that the loop comes to. -/
theorem exit_of_loads {args : List String} (hargs : Asks args path n) (hload : w.Loads path) :
    w.exit args = .ofResult (runCycles w.now n (w.machine path 0) 1).1 := by
  obtain ⟨program, hfile, hsize⟩ := hload
  have hofFile : Machine.ofFile w.entropy (w.clock 0) path (w.files path)
      = .ok (w.machine path 0) := by
    rw [machine_zero hfile hsize]
    unfold Machine.ofFile Machine.loadFile
    rw [hfile]
    dsimp only
    rw [Machine.load_of_fits _ _ hsize]
    rfl
  rw [exit_of_asks hargs, hofFile]
  rfl

/-- The first cycle that fails is where the loop ends, and its error is
reported. -/
theorem exit_of_failed {args : List String} (hargs : Asks args path n) (hload : w.Loads path)
    (hi : i < n) (h : w.Survives path i) {e : Error} (hfailed : w.answer path i = .failed e) :
    w.exit args = .failed e := by
  obtain ⟨k, rfl⟩ : ∃ k, n = i + (k + 1) := ⟨n - i - 1, by omega⟩
  rw [exit_of_loads hargs hload, runCycles_of_survives hload h, runCycles_of_failed hfailed]
  rfl

/-- If no cycle fails, the screen is shown as the last of them left it. -/
theorem exit_of_survives {args : List String} (hargs : Asks args path n) (hload : w.Loads path)
    (h : w.Survives path n) : w.exit args = .shown (w.machine path n) := by
  have hloop := runCycles_of_survives (k := 0) hload h
  rw [Nat.add_zero] at hloop
  rw [exit_of_loads hargs hload, hloop]
  rfl

/-- Cycles are made up to the first that fails, or all of them. -/
theorem survives_or_fails (w : World) (path : String) (n : Nat) :
    w.Survives path n ∨ ∃ i < n, w.Survives path i ∧ ∃ e, w.answer path i = .failed e := by
  induction n with
  | zero => exact Or.inl fun i hi => absurd hi (Nat.not_lt_zero i)
  | succ n ih =>
      rcases ih with h | ⟨i, hi, h⟩
      · by_cases hfailed : ∃ e, w.answer path n = .failed e
        · exact Or.inr ⟨n, Nat.lt_succ_self n, h, hfailed⟩
        · left
          intro i hi e he
          rcases Nat.lt_succ_iff_lt_or_eq.mp hi with hlt | rfl
          · exact h i hlt e he
          · exact hfailed ⟨e, he⟩
      · exact Or.inr ⟨i, Nat.lt_succ_of_lt hi, h⟩

/-- A run that is asked for ends with an error, or every cycle has been
made. -/
theorem exit_code_cases {args : List String} (hargs : Asks args path n) :
    (w.exit args).code = 1 ∨ (w.exit args).code = 0 ∧ w.Loads path ∧ w.Survives path n := by
  cases hfile : w.files path with
  | error problem =>
      rw [exit_of_unreadable hargs hfile]
      exact Or.inl rfl
  | ok program =>
      by_cases hsize : program.size ≤ 3584
      · have hload : w.Loads path := ⟨program, hfile, hsize⟩
        rcases w.survives_or_fails path n with h | ⟨i, hi, h, e, hfailed⟩
        · rw [exit_of_survives hargs hload h]
          exact Or.inr ⟨rfl, hload, h⟩
        · rw [exit_of_failed hargs hload hi h hfailed]
          exact Or.inl rfl
      · rw [exit_of_tooLarge hargs hfile (Nat.lt_of_not_le hsize)]
        exact Or.inl rfl

/-- The exit code is 2 if the command line makes no sense, and only then. -/
theorem exit_code_eq_two_iff {args : List String} :
    (w.exit args).code = 2 ↔ ¬ ∃ path n, Asks args path n := by
  constructor
  · intro h hasks
    obtain ⟨path, n, hargs⟩ := hasks
    rcases exit_code_cases (w := w) hargs with hone | ⟨hzero, -⟩
    · rw [hone] at h
      exact absurd h (by decide)
    · rw [hzero] at h
      exact absurd h (by decide)
  · intro h
    rw [exit_of_not_asks h]
    rfl

/-- A run without a window comes to what a host meets who loads the file
and makes the cycles one by one, each followed by a look at the clock.

It breaks off exactly if a word of its command line is not a text. If all
of them are, behind the program's own name, it ends with the usage
exactly if they make no sense. A file that cannot be read or does not
fit, or else the first cycle that fails, is the error that it reports,
and a report is of one error only; without any error it ends with the
display as it is behind the last cycle. No cycle that is reached finds
the machine stopped. And if a run ends without an error, so does every
shorter one, with the display as it was then. -/
theorem exit_eq_host (w : World) (words : List ByteArray) :
    (w.ends words = none ↔ ∃ word ∈ words, ¬ word.IsValidUTF8)
      ∧ ∀ (name : String) (args : List String), words = (name :: args).map String.toUTF8 →
        w.ends words = some (w.exit args)
          ∧ ((w.exit args).code = 2 ↔ ¬ ∃ path n, Asks args path n)
          ∧ ((w.exit args).code = 2 →
              w.exit args = ⟨2, "", ["usage: chipotle8 <rom> [cycles]"]⟩)
          ∧ (∀ e e', (w.exit args).Reports e → (w.exit args).Reports e' → e = e')
          ∧ ∀ path n, Asks args path n →
              (∀ problem, w.files path = .error problem →
                (w.exit args).Reports (.unreadable path problem))
                ∧ (∀ program, w.files path = .ok program → 3584 < program.size →
                  (w.exit args).Reports (.tooLarge program.size))
                ∧ (∀ program, w.files path = .ok program → program.size ≤ 3584 →
                  (∀ i < n, ∀ e, w.Survives path i → w.answer path i = .failed e →
                      (w.exit args).Reports e)
                    ∧ (w.Survives path n →
                      w.exit args = ⟨0, (w.machine path n).snapshot.text, []⟩)
                    ∧ ∀ i < n, w.Survives path i → w.answer path i ≠ .idle)
                ∧ ((w.exit args).code = 0 → ∀ k ≤ n, ∀ args', Asks args' path k →
                  w.exit args' = ⟨0, (w.machine path k).snapshot.text, []⟩) := by
  constructor
  · unfold ends
    rw [Option.map_eq_none_iff]
    exact mapM_eq_none_iff
  · intro name args hwords
    have hends : w.ends words = some (w.exit args) := by
      unfold ends
      rw [hwords, mapM_toUTF8]
      rfl
    refine ⟨hends, exit_code_eq_two_iff, ?_, fun e e' h h' => h.injective h', ?_⟩
    · intro h
      exact exit_of_not_asks (exit_code_eq_two_iff.mp h)
    · intro path n hargs
      refine ⟨?_, ?_, ?_, ?_⟩
      · intro problem hfile
        rw [exit_of_unreadable hargs hfile]
        exact Exit.reports_failed _
      · intro program hfile hsize
        rw [exit_of_tooLarge hargs hfile hsize]
        exact Exit.reports_failed _
      · intro program hfile hsize
        have hload : w.Loads path := ⟨program, hfile, hsize⟩
        refine ⟨?_, ?_, ?_⟩
        · intro i hi e h hfailed
          rw [exit_of_failed hargs hload hi h hfailed]
          exact Exit.reports_failed e
        · intro h
          exact exit_of_survives hargs hload h
        · intro i _ h
          exact answer_ne_idle hload h
      · intro hzero k hk args' hargs'
        rcases exit_code_cases hargs with hone | ⟨-, hload, h⟩
        · rw [hone] at hzero
          exact absurd hzero (by decide)
        · exact exit_of_survives hargs' hload fun i hi => h i (Nat.lt_of_lt_of_le hi hk)

/-- A world in which every file has a program that clears the display and
then returns, though no call is open. -/
def clearReturn : World := ⟨fun _ => .ok #[0x00, 0xE0, 0x00, 0xEE], Random.keyOfSeed 0, id⟩

/-- The program clears the screen, and then returns from nowhere. -/
theorem answer_clearReturn :
    clearReturn.answer "p" 0 = .ran .clear
      ∧ clearReturn.answer "p" 1 = .failed (.fault (.stackUnderflow 0x202)) := by
  have hzero : clearReturn.machine "p" 0 = Machine.loaded {} (.ofKey clearReturn.entropy) 0
      #[0x00, 0xE0, 0x00, 0xEE] := machine_zero rfl (by decide)
  have hmem : (clearReturn.machine "p" 0).memory = Memory.ofProgram #[0x00, 0xE0, 0x00, 0xEE] := by
    rw [hzero]
    rfl
  have hclear : (clearReturn.machine "p" 0).cycle
      = ⟨.ok (some .clear), { clearReturn.machine "p" 0 with display := Display.blank }.next, []⟩ := by
    refine Machine.cycle_of_exec ?_ (Memory.decode_ofProgram (k := 0) hmem ?_ ?_ ?_) rfl
    · rw [hzero]
      rfl
    · rw [hzero]
      rfl
    · decide
    · rfl
  have hone := clearReturn.machine_succ "p" 0
  rw [hclear, hzero] at hone
  have hmem' : (clearReturn.machine "p" 1).memory = Memory.ofProgram #[0x00, 0xE0, 0x00, 0xEE] := by
    rw [hone]
    rfl
  have hpc : (clearReturn.machine "p" 1).pc = 0x202 := by
    rw [hone]
    rfl
  have hreturn : (clearReturn.machine "p" 1).cycle.reply = .error (.stackUnderflow 0x202) := by
    have hempty : (clearReturn.machine "p" 1).stack = [] := by
      rw [hone]
      rfl
    have hexec := Machine.exec_ret_of_empty hempty
    rw [hpc] at hexec
    refine Machine.cycle_error_iff.mpr ⟨?_, Or.inr ⟨.ret, _, ?_, hexec, rfl⟩⟩
    · rw [hone]
      rfl
    · refine Memory.decode_ofProgram (k := 2) hmem' ?_ ?_ ?_
      · rw [hpc]
        rfl
      · decide
      · rfl
  constructor
  · rw [answer_eq, hclear]
    rfl
  · rw [answer_eq, hreturn]
    rfl

/-- One cycle ends without an error, and so does none; of a thousand the
second fails, and where it failed is reported. -/
theorem exits_clearReturn :
    clearReturn.ends (["chipotle8", "p", "+1"].map String.toUTF8)
        = some ⟨0, (clearReturn.machine "p" 1).snapshot.text, []⟩
      ∧ clearReturn.exit ["p", "00"] = ⟨0, (clearReturn.machine "p" 0).snapshot.text, []⟩
      ∧ (clearReturn.exit ["p"]).Reports (.fault (.stackUnderflow 0x202))
      ∧ (∃ path n, Asks ["p"] path n) ∧ (clearReturn.exit ["p"]).code ≠ 2 := by
  obtain ⟨hran, hfailed⟩ := answer_clearReturn
  have hnone : Asks ["p", "00"] "p" 0 :=
    .counted "p" ⟨[], ['0', '0'], by simp, by simp, by simp, by simp, rfl, by decide⟩
  have hone : Asks ["p", "+1"] "p" 1 :=
    .counted "p" ⟨['+'], ['1'], by simp, by simp, by simp, by simp, rfl, by decide⟩
  have hsurvives : clearReturn.Survives "p" 1 := by
    intro i hi e he
    obtain rfl : i = 0 := by omega
    rw [hran] at he
    cases he
  obtain ⟨-, htexts⟩ := exit_eq_host clearReturn (["chipotle8", "p", "+1"].map String.toUTF8)
  obtain ⟨hends, -, -, -, hasks⟩ := htexts "chipotle8" ["p", "+1"] rfl
  obtain ⟨-, -, hfits, hshorter⟩ := hasks "p" 1 hone
  obtain ⟨-, hshown, -⟩ := hfits _ rfl (by decide)
  have hexit := hshown hsurvives
  obtain ⟨-, htexts'⟩ := exit_eq_host clearReturn (["chipotle8", "p"].map String.toUTF8)
  obtain ⟨-, husage, -, -, hasks'⟩ := htexts' "chipotle8" ["p"] rfl
  obtain ⟨-, -, hfits', -⟩ := hasks' "p" 1000 (.alone "p")
  obtain ⟨hfirst, -, -⟩ := hfits' _ rfl (by decide)
  refine ⟨hends.trans (congrArg some hexit), hshorter (by rw [hexit]) 0 (by decide) _ hnone,
    hfirst 1 (by decide) _ hsurvives hfailed, ⟨"p", 1000, .alone "p"⟩, ?_⟩
  intro hcode
  exact husage.mp hcode ⟨"p", 1000, .alone "p"⟩

end World

end Chip8.Headless
