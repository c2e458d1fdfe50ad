/-
The source of random bytes moves on with CXNN, and with nothing else.

A script draws as many bytes as its calls answer that CXNN was run
(`draws`), whatever the mask; loads, resets, faults and all other
instructions come and go without moving the source. So how far the
source has come tells how often a machine has drawn since it was built,
and no more than that (`run_random`).
-/
import Chip8.Proofs.Footprint

namespace Chip8

/-- Whether an instruction draws a random byte. -/
def Instr.draws : Instr → Bool
  | .random .. => true
  | _ => false

/-- Whether a call answers that an instruction was run which draws a
random byte. -/
def Reply.isDraw : Reply → Bool
  | .ran i => i.draws
  | _ => false

namespace Random.Generator

/-- The source when so many more bytes have been drawn from it. -/
def after (g : Generator) (n : Nat) : Generator := { g with drawn := g.drawn + n }

theorem after_after (g : Generator) (n k : Nat) : (g.after n).after k = g.after (n + k) := by
  unfold after
  rw [Nat.add_assoc]

end Random.Generator

namespace Machine

/-- How many random bytes are drawn in the course of a script. -/
def draws (m : Machine) (script : Script) : Nat := (m.replies script).countP Reply.isDraw

/-- A script draws what its first call draws, and what the rest does. -/
theorem draws_cons (m : Machine) (now : Instant) (a : Action) (rest : Script) :
    m.draws ((now, a) :: rest)
      = (m.perform now a).reply.isDraw.toNat + (m.perform now a).machine.draws rest := by
  unfold draws
  rw [replies_cons, List.countP_cons, Nat.add_comm]
  cases (m.perform now a).reply.isDraw with
  | true => rfl
  | false => rfl

/-- An instruction moves the source on by one byte if it is CXNN, and not
at all if it is not. -/
theorem exec_random {m m' : Machine} {i : Instr} {events : List Event}
    (h : m.exec i = .ok (m', events)) : m'.random = m.random.after i.draws.toNat := by
  by_cases hi : ∃ x mask, i = .random x mask
  · obtain ⟨x, mask, rfl⟩ := hi
    cases h
    rfl
  · have hnone : i.draws = false := by
      cases i with
      | random x mask => exact absurd ⟨x, mask, rfl⟩ hi
      | _ => rfl
    rw [hnone]
    exact (exec_footprint h).random fun x mask hr => hi ⟨x, mask, hr⟩

private theorem fresh_random (config : Config) (random : Random.Generator) (now : Instant) :
    (fresh config random now).random = random := rfl

private theorem loaded_random (config : Config) (random : Random.Generator) (now : Instant)
    (program : Array UInt8) : (loaded config random now program).random = random := rfl

/-- Neither a load nor a key that is set answers that an instruction was
run. -/
private theorem isDraw_ofExcept (r : Except Error Unit) : (Reply.ofExcept r).isDraw = false := by
  cases r with
  | ok _ => rfl
  | error _ => rfl

/-- No call but a cycle answers that an instruction was run. -/
theorem isDraw_eq_false {a : Action} (ha : a ≠ .cycle) (m : Machine) (now : Instant) :
    (m.perform now a).reply.isDraw = false := by
  cases a with
  | cycle => exact absurd rfl ha
  | load | loadFile | setKey => exact isDraw_ofExcept _
  | _ => rfl

/-- A call moves the source on by one byte if it ran CXNN, and not at all
if it did not. -/
theorem perform_random (m : Machine) (now : Instant) (a : Action) :
    (m.perform now a).machine.random
      = m.random.after (m.perform now a).reply.isDraw.toNat := by
  by_cases ha : a = .cycle
  · subst ha
    show m.cycle.machine.random = m.random.after (Reply.ofCycle m.cycle.reply).isDraw.toNat
    rcases m.cycle_cases with ⟨-, hc⟩ | ⟨-, -, hc⟩ | ⟨i, f, -, -, -, hc⟩
      | ⟨i, m', events, -, -, hexec, hc⟩
    · rw [hc]
      rfl
    · rw [hc]
      rfl
    · rw [hc]
      rfl
    · rw [hc]
      exact exec_random hexec
  · rw [isDraw_eq_false ha]
    show _ = m.random
    rcases a.kind_cases with hr | rfl | rfl | ⟨hr, hc⟩
    · rcases perform_of_restarts hr m now with hm | hm | ⟨program, hm⟩
      · rw [hm]
      · rw [hm, fresh_random]
      · rw [hm, loaded_random]
    · rfl
    · exact absurd rfl ha
    · exact (perform_hostFrame hr hc m now).random

/-- A script in two parts draws what either part does. -/
theorem draws_append (first second : Script) :
    ∀ m : Machine, m.draws (first ++ second) = m.draws first + (m.run first).draws second := by
  induction first with
  | nil => intro m; exact (Nat.zero_add _).symm
  | cons call rest ih =>
      intro m
      obtain ⟨now, a⟩ := call
      rw [List.cons_append, draws_cons, draws_cons, ih, run_cons, Nat.add_assoc]

/-- A script without cycles draws nothing. -/
theorem draws_eq_zero {script : Script} (h : ∀ call ∈ script, call.2 ≠ .cycle) :
    ∀ m : Machine, m.draws script = 0 := by
  induction script with
  | nil => intro m; rfl
  | cons call rest ih =>
      intro m
      obtain ⟨now, a⟩ := call
      have hrest := ih fun call hcall => h call (List.mem_cons_of_mem _ hcall)
      rw [draws_cons, isDraw_eq_false (h (now, a) List.mem_cons_self), hrest]
      rfl

/-- After a script the source has moved on by as many bytes as were drawn
in its course. -/
theorem run_random (script : Script) :
    ∀ m : Machine, (m.run script).random = m.random.after (m.draws script) := by
  induction script with
  | nil => intro m; rfl
  | cons call rest ih =>
      intro m
      obtain ⟨now, a⟩ := call
      rw [run_cons, ih, perform_random, Random.Generator.after_after, draws_cons]

theorem run_config (script : Script) : ∀ m : Machine, (m.run script).config = m.config := by
  induction script with
  | nil => intro m; rfl
  | cons call rest ih =>
      intro m
      obtain ⟨now, a⟩ := call
      rw [run_cons, ih, perform_config]

end Machine

end Chip8
