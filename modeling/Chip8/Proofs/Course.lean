/-
The course of a script: its calls one by one, each with the board that it
was made on.

What happened in the course of a script is read off these calls. Each has
an answer, events, and a board that it leaves behind, and the board that
it leaves behind is the one that the next call is made on. So a part of
the course is the course of a part of the script (`course_eq_append`), and
what holds of every course holds of its parts.

# Starting and halting

Of all that a host can do, a load that is done is what sets a machine
running, and a reset, a stop and a cycle that fails are what halts it
(`Action.starts`, `Action.halts`). Both are told by the call and its
answer alone.
-/
import Chip8.Proofs.Reload

namespace Chip8

/-- Whether a call with this answer sets the machine running. -/
def Action.starts : Action → Reply → Bool
  | .load _, .done | .loadFile .., .done => true
  | _, _ => false

/-- Whether a call with this answer is a cycle that failed. -/
def Action.faults : Action → Reply → Bool
  | .cycle, .failed _ => true
  | _, _ => false

/-- Whether a call with this answer halts the machine. -/
def Action.halts : Action → Reply → Bool
  | .reset, _ | .stop, _ => true
  | a, r => a.faults r

/-- The answer of a cycle tells its outcome. -/
theorem Reply.ofCycle_injective : Function.Injective Reply.ofCycle := by
  rintro (f | _ | i) (f' | _ | i') h
  all_goals cases h
  all_goals rfl

/-- A call as it was made. -/
structure Call where
  before : Board
  now : Instant
  action : Action

namespace Call

/-- What the call came to. -/
def step (c : Call) : Board.Step Reply := c.before.perform c.now c.action

/-- The machine on the board comes to the same. -/
theorem outcome_step (c : Call) :
    c.before.machine.perform c.now c.action = c.step.outcome :=
  (c.before.perform_outcome c.now c.action).symm

def starts (c : Call) : Bool := c.action.starts c.step.reply

def halts (c : Call) : Bool := c.action.halts c.step.reply

def faults (c : Call) : Bool := c.action.faults c.step.reply

end Call

namespace Board

/-- The calls of a script as they are made on a board, in their order. -/
def course (b : Board) : Script → List Call
  | [] => []
  | (now, a) :: rest => ⟨b, now, a⟩ :: (b.perform now a).board.course rest

/-- What the calls of a script answer, in their order. -/
def replies (b : Board) (script : Script) : List Reply :=
  (b.course script).map fun c => c.step.reply

/-- The course of a script begins with its first call. -/
theorem course_cons (b : Board) (now : Instant) (a : Action) (rest : Script) :
    b.course ((now, a) :: rest) = ⟨b, now, a⟩ :: (b.perform now a).board.course rest := rfl

/-- The answers to a script begin with the one to its first call. -/
theorem replies_cons (b : Board) (now : Instant) (a : Action) (rest : Script) :
    b.replies ((now, a) :: rest)
      = (b.perform now a).reply :: (b.perform now a).board.replies rest := rfl

theorem run_cons (b : Board) (now : Instant) (a : Action) (rest : Script) :
    b.run ((now, a) :: rest) = (b.perform now a).board.run rest := rfl

/-- Where a course is cut, the script can be cut: either part of the
course is the course of its part of the script. -/
theorem course_eq_append {script : Script} {before after : List Call} :
    ∀ {b : Board}, b.course script = before ++ after →
      ∃ first second, script = first ++ second ∧ b.course first = before
        ∧ (b.run first).course second = after := by
  induction before generalizing script with
  | nil => intro b h; exact ⟨[], script, rfl, rfl, h⟩
  | cons c before ih =>
      intro b h
      cases script with
      | nil => cases h
      | cons call rest =>
          obtain ⟨now, a⟩ := call
          rw [course_cons, List.cons_append] at h
          injection h with hc hrest
          obtain ⟨first, second, rfl, rfl, hafter⟩ := ih hrest
          exact ⟨(now, a) :: first, second, rfl, by rw [course_cons, hc], hafter⟩

/-- The board on which a program has just been loaded, as far as its first
cycle asks: it runs, and goes on with what the program begins with. -/
theorem load_first (program : Array UInt8) {i : Instr} (hsize : program.size ≤ Memory.capacity)
    (hdec : Instr.decode?
      (UInt16.ofNat ((program.getD 0 0).toNat * 256 + (program.getD 1 0).toNat)) = some i)
    (b : Board) (now : Instant) :
    ∃ b', b.perform now (.load program) = ⟨.done, b', [.reset, .loaded program.size]⟩
      ∧ b'.stopped = false ∧ Instr.decode? b'.fetch = some i
      ∧ b'.calls = CallSlots.empty ∧ b'.pc = 0x200 := by
  refine ⟨_, perform_load hsize b now, rfl, ?_, rfl, rfl⟩
  exact Memory.decode_ofProgram (m := Machine.loaded b.config b.random now program) (k := 0) rfl
    rfl (by decide) hdec

end Board

namespace History

/-- The calls of a history. -/
def course (h : History) : List Call := (Board.built h.config h.entropy h.start).course h.calls

end History

end Chip8
