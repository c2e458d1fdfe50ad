/-
The configuration: where the dialects of the machine differ, how fast
its timers run, and where its random bytes come from.

The fields are also a type of their own, in the order in which they are
declared. That order is the meaning of a configuration written as an
array, and the names are the keys of one written as an object.
-/

namespace Chip8

/-- Which register the shift instructions read. -/
inductive ShiftSource where
  /-- VX, the register that is written too. -/
  | vx
  /-- VY. -/
  | vy
  deriving DecidableEq

/-- The configuration of a machine. -/
structure Config where
  /-- The operand of 8XY6 and 8XYE. -/
  shiftSource : ShiftSource := .vx
  /-- Whether FX55 and FX65 leave I behind the last byte. -/
  advancesIndex : Bool := true
  /-- Whether FX1E sets VF by whether I left the memory. -/
  flagsIndexOverflow : Bool := true
  /-- The milliseconds between two timer ticks. Without any the clock
  stands still. -/
  timerInterval : UInt64 := 1000
  /-- How much a tick takes off a timer. -/
  timerStep : UInt8 := 60
  /-- The seed of the random bytes; without one they differ from run to
  run. -/
  seed : Option UInt64 := none
  deriving DecidableEq

namespace ShiftSource

/-- The name of a shift source. -/
def name : ShiftSource → List Char
  | .vx => ['v', 'x']
  | .vy => ['v', 'y']

/-- The shift source with a name. -/
def ofName? (cs : List Char) : Option ShiftSource :=
  if cs = name .vx then some .vx else if cs = name .vy then some .vy else none

end ShiftSource

namespace Config

/-- The fields of a configuration. -/
inductive Field where
  | shiftSource
  | advancesIndex
  | flagsIndexOverflow
  | timerInterval
  | timerStep
  | seed
  deriving DecidableEq

namespace Field

/-- All fields, in the order of their declaration. -/
def all : List Field :=
  [.shiftSource, .advancesIndex, .flagsIndexOverflow, .timerInterval, .timerStep, .seed]

/-- The key under which a field is written. -/
def name : Field → String
  | .shiftSource => "shift_source"
  | .advancesIndex => "load_store_increments_index"
  | .flagsIndexOverflow => "index_overflow_sets_flag"
  | .timerInterval => "timer_interval_ms"
  | .timerStep => "timer_step"
  | .seed => "rng_seed"

/-- The field that is written under a key. -/
def ofName? (key : List Char) : Option Field := all.find? fun f => f.name.toList == key

end Field

end Config

end Chip8
