/-
What the machine reports while it is driven, as events in the order in
which they happened. Whether anybody listens, and from which level on,
is the listener's affair: the machine reports everything.

An event is written as a record: a level, a message, and fields that
carry its data, among them always the component that reports.
-/
import Chip8.Error
import Chip8.Instr.Basic
import Chip8.Keypad

namespace Chip8

/-- How much an event matters. A listener may ask for `trace`, but no
event of the machine is so slight: it hears what `debug` hears. -/
inductive Level where
  | error
  | warning
  | info
  | debug
  | trace
  deriving DecidableEq

namespace Level

/-- The place of a level, the most severe first. -/
def rank : Level → Nat
  | .error => 0
  | .warning => 1
  | .info => 2
  | .debug => 3
  | .trace => 4

def name : Level → String
  | .error => "error"
  | .warning => "warning"
  | .info => "info"
  | .debug => "debug"
  | .trace => "trace"

def ofName? (s : String) : Option Level :=
  [error, warning, info, debug, trace].find? fun l => name l == s

end Level

/-- Something that happened to the machine. -/
inductive Event where
  /-- The machine was put back to where it starts. -/
  | reset
  /-- A program of so many bytes was loaded. -/
  | loaded (bytes : Nat)
  /-- A program file was read. -/
  | readFile (path : String)
  /-- A running machine was stopped by its host. -/
  | stopped (pc : UInt16)
  /-- An instruction could not be run, and the machine stopped. -/
  | halting (fault : Fault)
  /-- A subroutine was left; `depth` calls are still open. -/
  | returned (target : UInt16) (depth : Nat)
  /-- A subroutine was entered; `depth` calls are open now. -/
  | called (target : UInt16) (depth : Nat)
  /-- A wait for a key has begun. -/
  | awaitingKey (x : Reg)
  /-- A key has ended a wait. -/
  | keyPressed (x : Reg) (key : Key)
  /-- A byte that would have landed in the font was dropped. -/
  | fontKept (cell : Cell)
  /-- The clock let the timers tick; they stand at `delay` and `sound`. -/
  | ticked (ticks : Nat) (delay sound : UInt8)
  /-- The host named a key that does not exist. -/
  | unknownKey (code : UInt8)
  deriving DecidableEq

namespace Event

/-- How much an event matters. -/
def level : Event → Level
  | .halting _ => .error
  | .fontKept _ | .unknownKey _ => .warning
  | .reset | .loaded _ | .readFile _ | .stopped _ => .info
  | .returned .. | .called .. | .awaitingKey _ | .keyPressed .. | .ticked .. => .debug

def message : Event → String
  | .reset => "reset"
  | .loaded _ => "loaded program"
  | .readFile _ => "read program file"
  | .stopped _ => "stopped"
  | .halting _ => "halting"
  | .returned .. => "return"
  | .called .. => "call"
  | .awaitingKey _ => "waiting for key"
  | .keyPressed .. => "key pressed"
  | .fontKept _ => "ignoring write into the font"
  | .ticked .. => "timers ticked"
  | .unknownKey _ => "ignoring unknown key"

def details : Event → List (String × String)
  | .reset => []
  | .loaded bytes => [("bytes", toString bytes)]
  | .readFile path => [("path", path)]
  | .stopped pc => [("pc", Text.address pc)]
  | .halting fault => [("error", fault.message)]
  | .returned target depth | .called target depth =>
    [("to", Text.address target), ("depth", toString depth)]
  | .awaitingKey x => [("register", toString x.val)]
  | .keyPressed x key => [("register", toString x.val), ("key", toString key.val)]
  | .fontKept cell => [("addr", Text.address cell.address)]
  | .ticked ticks delay sound =>
    [("ticks", toString ticks), ("delay", toString delay.toNat),
      ("sound", toString sound.toNat)]
  | .unknownKey code => [("code", toString code.toNat)]

/-- The fields of an event: who reports, and the data. -/
def fields (e : Event) : List (String × String) := ("component", "cpu") :: e.details

/-- Whether a listener that keeps everything down to `least` keeps the
event. -/
def isAtLeast (e : Event) (least : Level) : Bool := e.level.rank ≤ least.rank

end Event

end Chip8
