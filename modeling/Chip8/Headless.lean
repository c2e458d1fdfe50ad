/-
Running a program without a window: load it, run a number of cycles, and
show the display at the end.

The run is described over any monad that can tell the time, so that the
same definition runs on a real clock and is reasoned about with one that
is made up. After every cycle the timers tick as often as is due. The
first error ends the run, and so does a machine that has stopped.

A run ends in an exit code and in what it wrote: 0 and the display, 1
and the error, or 2 and the usage for a command line that makes no
sense.
-/
import Chip8.Machine.Host
import Chip8.Machine.Snapshot

namespace Chip8.Headless

-- ========================================================= command line

/-- What a command line asks for. -/
structure Command where
  program : String
  cycles : Nat
  deriving DecidableEq

/-- How many cycles are run if the command line does not say. -/
def defaultCycles : Nat := 1000

/-- A number of cycles: decimal digits, perhaps behind one plus sign,
that make a number of at most 64 bits. -/
def parseCount? (s : String) : Option Nat :=
  let digits := match s.toList with
    | '+' :: ds => ds
    | ds => ds
  if digits ≠ [] ∧ digits.all Char.isDigit then
    let n := Nat.ofDigitChars 10 digits 0
    if n < UInt64.size then some n else none
  else none

/-- What a command line asks for, if it makes sense. -/
def Command.ofArgs? : List String → Option Command
  | [program] => some ⟨program, defaultCycles⟩
  | [program, count] => (parseCount? count).map (⟨program, ·⟩)
  | _ => none

-- ================================================================= runs

/-- What is left behind at the end. -/
structure Exit where
  code : UInt32
  output : String
  errors : List String
  deriving DecidableEq

/-- The end of a run without an error. -/
def Exit.shown (m : Machine) : Exit := ⟨0, m.snapshot.text, []⟩

/-- The end of a run with an error. -/
def Exit.failed (e : Error) : Exit := ⟨1, "", ["Error: " ++ e.record]⟩

/-- The end for a command line that makes no sense. -/
def Exit.usage : Exit := ⟨2, "", ["usage: chipotle8 <rom> [cycles]"]⟩

section

variable {μ : Type → Type} [Monad μ]

/-- Run up to so many cycles, each followed by a look at the clock. -/
def runCycles (now : μ Instant) : Nat → Machine → μ (Except Error Machine)
  | 0, m => pure (.ok m)
  | n + 1, m =>
    match m.cycle with
    | ⟨.error fault, _, _⟩ => pure (.error (.fault fault))
    | ⟨.ok none, _, _⟩ => pure (.ok m)
    | ⟨.ok (some _), m', _⟩ => do
      let t ← now
      runCycles now n (m'.settleClock t).machine

/-- Carry out a command. -/
def Command.run (read : String → μ (Except FileProblem (Array UInt8))) (now : μ Instant)
    (entropy : μ Random.ChaCha.Key) (command : Command) : μ Exit := do
  let key ← entropy
  let start ← now
  let contents ← read command.program
  match Machine.ofFile key start command.program contents with
  | .error e => pure (.failed e)
  | .ok m =>
    match ← runCycles now command.cycles m with
    | .error e => pure (.failed e)
    | .ok m => pure (.shown m)

/-- Carry out a command line. -/
def run (read : String → μ (Except FileProblem (Array UInt8))) (now : μ Instant)
    (entropy : μ Random.ChaCha.Key) (args : List String) : μ Exit :=
  match Command.ofArgs? args with
  | none => pure .usage
  | some command => command.run read now entropy

end

end Chip8.Headless
