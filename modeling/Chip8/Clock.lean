/-
The clock that paces the timers: it turns instants into ticks. It
remembers the last instant that it has accounted for, which moves on by
whole intervals only: what is left of an interval when the clock is asked
counts towards the next answer. A clock without an interval never ticks.
-/

namespace Chip8

/-- An instant, in nanoseconds. -/
abbrev Instant := Nat

/-- A clock that ticks once in every interval, counted in nanoseconds. -/
structure Clock where
  interval : Nat
  /-- The last instant that has been accounted for. -/
  last : Instant
  deriving DecidableEq

namespace Clock

/-- How many ticks are due at an instant. -/
def due (c : Clock) (now : Instant) : Nat := (now - c.last) / c.interval

/-- Account for the ticks that are due at an instant. -/
def settle (c : Clock) (now : Instant) : Nat × Clock :=
  (c.due now, { c with last := c.last + c.due now * c.interval })

/-- Account for all time up to an instant, ticks or not. -/
def restart (c : Clock) (now : Instant) : Clock := { c with last := now }

end Clock

end Chip8
