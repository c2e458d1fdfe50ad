/-
What a host can do with a machine: build one, load programs, run it
instruction by instruction, pace its timers, press its keys.

Each call gives back its answer, the machine as it leaves it, and the
events that it caused, in order. Calls that depend on the time take the
instant at which they are made. `perform` makes any of the calls that
change a machine; a script of calls is then a list of actions, each with
its instant.
-/
import Chip8.Machine.Exec

namespace Chip8

/-- What a call comes to. -/
structure Outcome (α : Type) where
  reply : α
  machine : Machine
  events : List Event

/-- Put the answer of a call another way. -/
def Outcome.map {α β : Type} (f : α → β) (o : Outcome α) : Outcome β :=
  ⟨f o.reply, o.machine, o.events⟩

namespace Machine

-- ======================================================= starting afresh

/-- A machine as it is before a program is loaded: only the font in its
memory, everything else cleared, and stopped. The configuration and the
source of random bytes are those it is given. -/
def fresh (config : Config) (random : Random.Generator) (now : Instant) : Machine where
  config := config
  memory := Memory.blank
  registers := Vector.replicate 16 0
  index := 0
  pc := UInt16.ofNat Memory.programStart
  stack := []
  timers := Timers.zero
  clock := ⟨config.timerInterval.toNat * 1000000, now⟩
  display := Display.blank
  keypad := Keypad.idle
  stopped := true
  random := random

/-- Build a machine. Its random bytes come from the seed of the
configuration, and from `entropy` if there is none. -/
def new (config : Config) (entropy : Random.ChaCha.Key) (now : Instant) : Outcome Unit where
  reply := ()
  machine := fresh config (.ofKey ((config.seed.map Random.keyOfSeed).getD entropy)) now
  events := [.reset]

/-- Put the machine back to where it starts. The source of random bytes
goes on where it is. -/
def reset (m : Machine) (now : Instant) : Outcome Unit where
  reply := ()
  machine := fresh m.config m.random now
  events := [.reset]

/-- Reset the machine and let it run a program. A program that does not
fit is refused. -/
def load (m : Machine) (now : Instant) (program : Array UInt8) : Outcome (Except Error Unit) :=
  if Memory.capacity < program.size then ⟨.error (.tooLarge program.size), m, []⟩
  else
    ⟨.ok (), { (m.reset now).machine with memory := Memory.ofProgram program, stopped := false },
      [.reset, .loaded program.size]⟩

/-- Load a program from a file, given what came of reading it. -/
def loadFile (m : Machine) (now : Instant) (path : String)
    (contents : Except FileProblem (Array UInt8)) : Outcome (Except Error Unit) :=
  match contents with
  | .error problem => ⟨.error (.unreadable path problem), m, []⟩
  | .ok program =>
    let o := m.load now program
    { o with events := .readFile path :: o.events }

/-- Build a machine in the default configuration that runs a program
from a file. -/
def ofFile (entropy : Random.ChaCha.Key) (now : Instant) (path : String)
    (contents : Except FileProblem (Array UInt8)) : Except Error Machine :=
  let o := (new {} entropy now).machine.loadFile now path contents
  o.reply.map fun _ => o.machine

-- =============================================================== running

def stop (m : Machine) : Outcome Unit :=
  ⟨(), { m with stopped := true }, if m.stopped then [] else [.stopped m.pc]⟩

/-- Stop on a fault, with some events reported before it. -/
def halt (m : Machine) (events : List Event) (fault : Fault) :
    Outcome (Except Fault (Option Instr)) :=
  ⟨.error fault, { m with stopped := true }, events ++ [.halting fault]⟩

/-- Run the instruction at the program counter. The answer is the
instruction, or nothing if the machine is stopped. A fault stops the
machine that the instruction has left. -/
def cycle (m : Machine) : Outcome (Except Fault (Option Instr)) :=
  if m.stopped then ⟨.ok none, m, []⟩
  else
    match Instr.decode? m.fetch with
    | none => m.halt [] (.unknownInstruction m.fetch m.pc)
    | some instr =>
      match m.exec instr with
      | .error reached => reached.state.halt reached.events reached.fault
      | .ok (m', events) => ⟨.ok (some instr), m', events⟩

-- ================================================================ timers

def tick (m : Machine) : Machine := { m with timers := m.timers.tick m.config.timerStep }

/-- Let the timers tick as often as is due. -/
def settleClock (m : Machine) (now : Instant) : Outcome Unit :=
  let (ticks, clock) := m.clock.settle now
  let timers := m.timers.ticks ticks m.config.timerStep
  ⟨(), { m with timers := timers, clock := clock },
    if ticks = 0 then [] else [.ticked ticks timers.delay timers.sound]⟩

def setDelay (m : Machine) (value : UInt8) : Machine :=
  { m with timers := { m.timers with delay := value } }

def setSound (m : Machine) (value : UInt8) : Machine :=
  { m with timers := { m.timers with sound := value } }

-- ================================================================== keys

/-- Press or release a key. A number that is no key's is refused. -/
def setKey (m : Machine) (code : UInt8) (isDown : Bool) : Outcome (Except Error Unit) :=
  match Key.ofNat? code.toNat with
  | some key => ⟨.ok (), { m with keypad := m.keypad.set key isDown }, []⟩
  | none => ⟨.error (.invalidKey code), m, [.unknownKey code]⟩

/-- Have exactly the listed keys down. -/
def setKeys (m : Machine) (keys : List Key) : Machine :=
  { m with keypad := m.keypad.update keys }

end Machine

-- =============================================================== scripts

/-- A call that a host can make on a machine. -/
inductive Action where
  | load (program : Array UInt8)
  | loadFile (path : String) (contents : Except FileProblem (Array UInt8))
  | reset
  | stop
  | cycle
  | tick
  | settleClock
  | setDelay (value : UInt8)
  | setSound (value : UInt8)
  | setKey (code : UInt8) (isDown : Bool)
  | setKeys (keys : List Key)

/-- What a call answers. -/
inductive Reply where
  | done
  | ran (instr : Instr)
  /-- Nothing was run, as the machine is stopped. -/
  | idle
  | failed (error : Error)
  deriving DecidableEq

/-- The answer of a call that either is done or fails. -/
def Reply.ofExcept : Except Error Unit → Reply
  | .ok _ => .done
  | .error e => .failed e

/-- The answer of a cycle. -/
def Reply.ofCycle : Except Fault (Option Instr) → Reply
  | .ok (some instr) => .ran instr
  | .ok none => .idle
  | .error fault => .failed (.fault fault)

namespace Machine

/-- Make a call at an instant. -/
def perform (m : Machine) (now : Instant) : Action → Outcome Reply
  | .load program => (m.load now program).map .ofExcept
  | .loadFile path contents => (m.loadFile now path contents).map .ofExcept
  | .reset => (m.reset now).map fun _ => .done
  | .stop => m.stop.map fun _ => .done
  | .cycle => m.cycle.map .ofCycle
  | .tick => ⟨.done, m.tick, []⟩
  | .settleClock => (m.settleClock now).map fun _ => .done
  | .setDelay value => ⟨.done, m.setDelay value, []⟩
  | .setSound value => ⟨.done, m.setSound value, []⟩
  | .setKey code isDown => (m.setKey code isDown).map .ofExcept
  | .setKeys keys => ⟨.done, m.setKeys keys, []⟩

end Machine

end Chip8
