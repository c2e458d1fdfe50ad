/-
Failures leave nothing half done.

A call fails for one of four reasons (`failed_cases`): a program that is
too long, a file that could not be read, a number that is no key's, or a
fault of the instruction at the program counter. The first three are
refusals, made before anything is touched. A fault stops the board that
the instruction has left when it gave up, and that is the board it was
run on (`exec_error`): a call and a return look at the stack before they
move a slot, a number or the program counter. What an error says of
itself, whether it is fatal and where it happened, is read off the same
four cases.

All of this is said of boards, so that "nothing" includes what a machine
does not even keep: the slots above the open calls, and the keys as last
looked at when nobody waits any more.
-/
import Chip8.Proofs.Board

namespace Chip8

/-- The program that a call asks to run, if it could be read. -/
def Action.program? : Action → Option (Array UInt8)
  | .load program => some program
  | .loadFile _ (.ok program) => some program
  | _ => none

namespace Board

variable {b : Board}

-- =========================================================== the faults

/-- An instruction that faults says where it is. -/
theorem exec_error_pc {i : Instr} {g : Faulted Board} (h : b.exec i = .error g) :
    g.fault = .stackOverflow b.pc ∨ g.fault = .stackUnderflow b.pc := by
  have hm : b.machine.exec i = .error ⟨g.fault, g.state.machine, g.events⟩ := by
    rw [← b.exec_machine i, h]
    rfl
  rcases Machine.exec_error_iff.mp hm with ⟨t, -, -, hg⟩ | ⟨-, -, hg⟩
  · exact Or.inl (congrArg Faulted.fault hg)
  · exact Or.inr (congrArg Faulted.fault hg)

/-- A fault belongs to a machine if it says where that machine is, and
the word that it names, if it names one, is the word there. -/
def Blames (b : Board) (f : Fault) : Prop :=
  f.pc = b.pc
    ∧ ∀ word pc, f = .unknownInstruction word pc → word = b.fetch ∧ Instr.decode? word = none

/-- A fault that an instruction raises belongs to the machine that ran
it. -/
theorem blames_of_exec {i : Instr} {g : Faulted Board} (h : b.exec i = .error g) :
    b.Blames g.fault := by
  rcases exec_error_pc h with hf | hf
  · rw [hf]
    exact ⟨rfl, nofun⟩
  · rw [hf]
    exact ⟨rfl, nofun⟩

/-- A cycle that fails has stopped a running machine and done nothing
else. -/
theorem cycle_error {f : Fault} (h : b.cycle.reply = .error f) :
    b.stopped = false ∧ b.cycle.board = { b with stopped := true } ∧ b.Blames f := by
  rcases b.cycle_cases with ⟨-, hc⟩ | ⟨hrun, hdec, hc⟩ | ⟨i, g, hrun, -, hexec, hc⟩
    | ⟨i, b', events, -, -, -, hc⟩
  · rw [hc] at h
    cases h
  · rw [hc] at h ⊢
    cases h
    refine ⟨hrun, rfl, rfl, fun word pc heq => ?_⟩
    cases heq
    exact ⟨rfl, hdec⟩
  · rw [hc] at h ⊢
    cases h
    exact ⟨hrun, rfl, blames_of_exec hexec⟩
  · rw [hc] at h
    cases h

-- ============================================================ the calls

/-- A load fails only if the program is too large, says its size, and
leaves the board as it was. -/
theorem load_error {now : Instant} {program : Array UInt8} {e : Error}
    (h : (b.load now program).reply = .error e) :
    Memory.capacity < program.size ∧ e = .tooLarge program.size
      ∧ (b.load now program).board = b := by
  unfold load at h ⊢
  split
  next hsize =>
    rw [if_pos hsize] at h
    cases h
    exact ⟨hsize, rfl, rfl⟩
  next hsize =>
    rw [if_neg hsize] at h
    cases h

/-- Setting a key fails only if there is no such key, names it, and leaves
the board as it was. -/
theorem setKey_error {code : UInt8} {isDown : Bool} {e : Error}
    (h : (b.setKey code isDown).reply = .error e) :
    16 ≤ code.toNat ∧ e = .invalidKey code ∧ (b.setKey code isDown).board = b := by
  unfold setKey at h ⊢
  split
  next hcode =>
    rw [dif_pos hcode] at h
    cases h
  next hcode =>
    rw [dif_neg hcode] at h
    cases h
    exact ⟨Nat.le_of_not_lt hcode, rfl, rfl⟩

theorem ofExcept_eq_failed {r : Except Error Unit} {e : Error}
    (h : Reply.ofExcept r = .failed e) : r = .error e := by
  cases r with
  | ok _ => cases h
  | error e' =>
      cases h
      rfl

theorem ofCycle_eq_failed {r : Except Fault (Option Instr)} {e : Error}
    (h : Reply.ofCycle r = .failed e) : ∃ f, r = .error f ∧ e = .fault f := by
  cases r with
  | ok i => cases i with
    | none => cases h
    | some i => cases h
  | error f =>
      cases h
      exact ⟨f, rfl, rfl⟩

/-- Why a call fails, and what it leaves behind. -/
theorem failed_cases {now : Instant} {a : Action} {e : Error}
    (h : (b.perform now a).reply = .failed e) :
    (∃ program, a.program? = some program ∧ Memory.capacity < program.size
        ∧ e = .tooLarge program.size ∧ (b.perform now a).board = b)
      ∨ (∃ path problem, a = .loadFile path (.error problem) ∧ e = .unreadable path problem
        ∧ (b.perform now a).board = b)
      ∨ (∃ code isDown, a = .setKey code isDown ∧ 16 ≤ code.toNat ∧ e = .invalidKey code
        ∧ (b.perform now a).board = b)
      ∨ (∃ f, a = .cycle ∧ e = .fault f ∧ b.stopped = false
        ∧ (b.perform now a).board = { b with stopped := true } ∧ b.Blames f) := by
  cases a with
  | load program =>
      exact Or.inl ⟨program, rfl, load_error (ofExcept_eq_failed h)⟩
  | loadFile path contents =>
      cases contents with
      | error problem =>
          cases h
          exact Or.inr (Or.inl ⟨path, problem, rfl, rfl, rfl⟩)
      | ok program => exact Or.inl ⟨program, rfl, load_error (ofExcept_eq_failed h)⟩
  | setKey code isDown =>
      exact Or.inr (Or.inr (Or.inl ⟨code, isDown, rfl, setKey_error (ofExcept_eq_failed h)⟩))
  | cycle =>
      obtain ⟨f, hf, rfl⟩ := ofCycle_eq_failed h
      exact Or.inr (Or.inr (Or.inr ⟨f, rfl, rfl, cycle_error hf⟩))
  | _ => cases h

/-- A program is refused for its length exactly if it is too long. -/
theorem tooLarge_iff {now : Instant} {a : Action} {size : Nat} :
    (b.perform now a).reply = .failed (.tooLarge size)
      ↔ ∃ program, a.program? = some program ∧ Memory.capacity < program.size
        ∧ size = program.size := by
  constructor
  · intro h
    rcases failed_cases h with ⟨program, hp, hsize, he, -⟩ | ⟨_, _, -, he, -⟩
      | ⟨_, _, -, -, he, -⟩ | ⟨_, -, he, -⟩
    · cases he
      exact ⟨program, hp, hsize, rfl⟩
    all_goals cases he
  · rintro ⟨program, hp, hsize, rfl⟩
    have hload : (b.load now program).reply = .error (.tooLarge program.size) := by
      unfold load
      rw [if_pos hsize]
    cases a with
    | load p =>
        cases hp
        show Reply.ofExcept (b.load now program).reply = _
        rw [hload]
        rfl
    | loadFile path contents =>
        cases contents with
        | error problem => cases hp
        | ok p =>
            cases hp
            show Reply.ofExcept (b.load now program).reply = _
            rw [hload]
            rfl
    | _ => cases hp

/-- A key is refused exactly if there is none with its number. -/
theorem invalidKey_iff {now : Instant} {a : Action} {code : UInt8} :
    (b.perform now a).reply = .failed (.invalidKey code)
      ↔ ∃ isDown, a = .setKey code isDown ∧ 16 ≤ code.toNat := by
  constructor
  · intro h
    rcases failed_cases h with ⟨_, -, -, he, -⟩ | ⟨_, _, -, he, -⟩
      | ⟨code', isDown, ha, hcode, he, -⟩ | ⟨_, -, he, -⟩
    all_goals cases he
    exact ⟨isDown, ha, hcode⟩
  · rintro ⟨isDown, rfl, hcode⟩
    show Reply.ofExcept (b.setKey code isDown).reply = _
    unfold setKey
    rw [dif_neg (Nat.not_lt.mpr hcode)]
    rfl

-- ========================================================= the contract

/-- Errors are atomic, and say truly whether they are fatal.

The board answers as the machine that it holds. If the answer is a fatal
error, the call was a cycle on a machine that ran, and all that it did is
to stop it; the error says where, and names the word that is there, high
byte first. If the error is not fatal, nothing is changed at all. A cycle
fails with a fatal error only; a program is refused for its length
exactly if it has more than 3584 bytes, and a key exactly if its number
is 16 or more. -/
theorem errors_are_atomic (b : Board) (now : Instant) (a : Action) :
    (b.perform now a).outcome = b.machine.perform now a
      ∧ (∀ e, (b.perform now a).reply = .failed e →
        (e.isFatal = true →
          a = .cycle ∧ b.stopped = false
            ∧ (b.perform now a).board = { b with stopped := true }
            ∧ ∃ f, e = .fault f ∧ f.pc = b.pc ∧ f.pc = (b.perform now a).board.pc
              ∧ ∀ word pc, f = .unknownInstruction word pc →
                word.toNat = 256 * (b.memory.cells.get (Cell.ofAddress pc)).toNat
                    + (b.memory.cells.get (Cell.ofAddress (pc + 1))).toNat
                  ∧ Instr.decode? word = none)
        ∧ (e.isFatal = false → (b.perform now a).board = b)
        ∧ (a = .cycle → e.isFatal = true))
      ∧ (∀ size, (b.perform now a).reply = .failed (.tooLarge size)
          ↔ ∃ program, a.program? = some program ∧ 3584 < program.size ∧ size = program.size)
      ∧ (∀ code, (b.perform now a).reply = .failed (.invalidKey code)
          ↔ ∃ isDown, a = .setKey code isDown ∧ 16 ≤ code.toNat) := by
  refine ⟨b.perform_outcome now a, fun e he => ?_, fun _ => tooLarge_iff,
    fun _ => invalidKey_iff⟩
  rcases failed_cases he with ⟨program, hp, -, rfl, hb⟩ | ⟨path, problem, rfl, rfl, hb⟩
    | ⟨code, isDown, rfl, -, rfl, hb⟩ | ⟨f, rfl, rfl, hrun, hb, hpc, hword⟩
  · refine ⟨nofun, fun _ => hb, ?_⟩
    rintro rfl
    cases hp
  · exact ⟨nofun, fun _ => hb, nofun⟩
  · exact ⟨nofun, fun _ => hb, nofun⟩
  · refine ⟨fun _ => ⟨rfl, hrun, hb, f, rfl, hpc, ?_, ?_⟩, nofun, fun _ => rfl⟩
    · rw [hb]
      exact hpc
    · rintro word pc rfl
      obtain ⟨rfl, hdec⟩ := hword word pc rfl
      obtain rfl : pc = b.pc := hpc
      exact ⟨b.machine.fetch_toNat, hdec⟩

/-- A program that begins with a word that stands for no instruction. -/
def nonsense : Array UInt8 := #[0xFF, 0xFF]

/-- A board that was just let run `nonsense`. -/
def beforeNonsense : Board := cleared (Machine.booted nonsense)

/-- The word is named, where it is, and the board does no more than
stop. -/
theorem nonsense_only_stops :
    (beforeNonsense.perform 0 .cycle).reply
        = .failed (.fault (.unknownInstruction 0xFFFF 0x200))
      ∧ (beforeNonsense.perform 0 .cycle).board = { beforeNonsense with stopped := true } := by
  have hmem : beforeNonsense.memory = Memory.ofProgram nonsense := rfl
  have hfetch : beforeNonsense.fetch = 0xFFFF := by
    rw [fetch, hmem, Memory.readWord_ofProgram nonsense (k := 0) rfl (by decide)]
    rfl
  have hreply : (beforeNonsense.perform 0 .cycle).reply
      = .failed (.fault (.unknownInstruction 0xFFFF 0x200)) := by
    have hdec : Instr.decode? beforeNonsense.fetch = none := by
      rw [hfetch]
      rfl
    rw [perform_cycle, cycle_of_unknown rfl hdec, hfetch]
    rfl
  obtain ⟨-, hfailed, -, -⟩ := errors_are_atomic beforeNonsense 0 .cycle
  obtain ⟨hfatal, -, -⟩ := hfailed _ hreply
  exact ⟨hreply, (hfatal rfl).2.2.1⟩

end Board

end Chip8
