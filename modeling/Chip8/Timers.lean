/-
The two timers. A timer counts down and stops at zero. `tick` takes one
step off both, and `ticks n` is what `n` of them come to; it is a single
subtraction, because a subtraction that stops at zero may be done all at
once.
-/

namespace Chip8

structure Timers where
  delay : UInt8
  sound : UInt8
  deriving DecidableEq

namespace Timers

def zero : Timers := ⟨0, 0⟩

/-- What is left of a count after `amount` is taken off it. -/
def lower (count : UInt8) (amount : Nat) : UInt8 := UInt8.ofNat (count.toNat - amount)

/-- Take one step off both timers. -/
def tick (t : Timers) (step : UInt8) : Timers :=
  ⟨lower t.delay step.toNat, lower t.sound step.toNat⟩

/-- Take `n` steps off both timers. -/
def ticks (t : Timers) (n : Nat) (step : UInt8) : Timers :=
  ⟨lower t.delay (n * step.toNat), lower t.sound (n * step.toNat)⟩

/-- Whether the sound timer runs, and so a host should be heard. -/
def isSounding (t : Timers) : Bool := t.sound != 0

/-- When no interval has passed the timers stand where they were. -/
theorem ticks_zero (t : Timers) (step : UInt8) : t.ticks 0 step = t := by
  simp [ticks, lower]

/-- Steps may be taken one by one or all at once. -/
theorem ticks_succ (t : Timers) (n : Nat) (step : UInt8) :
    t.ticks (n + 1) step = (t.ticks n step).tick step := by
  have lower_lower (c : UInt8) (a b : Nat) : lower (lower c a) b = lower c (a + b) := by
    have h : (UInt8.ofNat (c.toNat - a)).toNat = c.toNat - a :=
      UInt8.toNat_ofNat_of_lt' (by have := c.toNat_lt; simp [UInt8.size]; omega)
    simp [lower, h, Nat.sub_sub]
  simp [ticks, tick, lower_lower, Nat.succ_mul]

end Timers

end Chip8
