/-
The timers run down at the pace of the clock, however often the host
looks at it.

# Counting

The clock answers with a quotient and the timers take all steps off at
once. Both come to the same as going one by one: adding intervals to the
last instant for as long as they fit (`Clock.settle_eq_walk`), and taking
single steps (`Timers.ticks_eq_iterate`).

# One poll after the other

A poll leaves the rest of an interval for the next, so what is due at a
later instant is due in two parts if a poll comes in between
(`Clock.due_add`), and steps taken in two parts are steps taken in one
(`Timers.ticks_add`). By induction over a script, all its polls come to
the same as the last of them alone (`run_timers`). What a script does
besides is of no account, as long as it does not set the timers.
-/
import Chip8.Proofs.Footprint
import Chip8.Proofs.Memory

namespace Chip8

-- ============================================================ the clock

namespace Clock

/-- Move the last instant on by one interval after the other, for as long
as they fit, and count them. -/
def walk (c : Clock) (now : Instant) : Nat × Clock :=
  if h : 0 < c.interval ∧ c.last + c.interval ≤ now then
    let later := walk { c with last := c.last + c.interval } now
    (later.1 + 1, later.2)
  else (0, c)
termination_by now - c.last
decreasing_by
  have hlt : c.last < c.last + c.interval := Nat.lt_add_of_pos_right h.1
  exact Nat.sub_lt_sub_left (hlt.trans_le h.2) hlt

/-- Dividing comes to the same as counting. -/
theorem settle_eq_walk (c : Clock) (now : Instant) : c.settle now = c.walk now := by
  fun_induction walk c now with
  | case1 c h later ih =>
      have hfits : c.interval ≤ now - c.last := Nat.le_sub_of_add_le' h.2
      have hdue : c.due now = ({ c with last := c.last + c.interval } : Clock).due now + 1 := by
        unfold due
        rw [Nat.div_eq_sub_div h.1 hfits, Nat.sub_add_eq]
      have hlast (n : Nat) :
          c.last + (n + 1) * c.interval = c.last + c.interval + n * c.interval := by
        rw [Nat.succ_mul, Nat.add_comm _ c.interval, Nat.add_assoc]
      rw [show later = _ from ih.symm]
      unfold settle
      rw [hdue, hlast]
  | case2 c h =>
      have hdue : c.due now = 0 := by
        unfold due
        rw [Nat.div_eq_zero_iff]
        dsimp only [Instant] at h ⊢
        omega
      unfold settle
      rw [hdue, Nat.zero_mul]
      rfl

/-- What is due at an instant is due in two parts if the clock is asked in
between. -/
theorem due_add (c : Clock) {now later : Instant} (h : now ≤ later) :
    c.due now + (c.settle now).2.due later = c.due later := by
  show c.due now + (later - (c.last + c.due now * c.interval)) / c.interval = c.due later
  have hle : c.due now ≤ c.due later := Nat.div_le_div_right (Nat.sub_le_sub_right h _)
  rw [Nat.sub_add_eq, Nat.mul_comm, Nat.sub_mul_div]
  exact Nat.add_sub_cancel' hle

/-- What is due at the last of some instants, or nothing if there is
none. -/
def dueBy (c : Clock) (polls : List Instant) : Nat := (polls.getLast?.map c.due).getD 0

/-- What polls find due by their end is what is due at the last of them. -/
theorem dueBy_of_last {c : Clock} {polls : List Instant} {t : Instant}
    (h : polls.getLast? = some t) : c.dueBy polls = c.due t := by
  unfold dueBy
  rw [h]
  rfl

/-- A first poll takes off what is due by the last, and no more. -/
theorem dueBy_cons (c : Clock) {now : Instant} {polls : List Instant}
    (h : (now :: polls).Pairwise (· ≤ ·)) :
    c.dueBy (now :: polls) = c.due now + (c.settle now).2.dueBy polls := by
  cases hlast : polls.getLast? with
  | none =>
      rw [List.getLast?_eq_none_iff.mp hlast]
      rfl
  | some t =>
      have hle : now ≤ t := List.rel_of_pairwise_cons h (List.mem_of_getLast? hlast)
      have hlast' : (now :: polls).getLast? = some t := by
        rw [List.getLast?_cons, hlast]
        rfl
      rw [dueBy_of_last hlast, dueBy_of_last hlast', c.due_add hle]

end Clock

-- =========================================================== the timers

namespace Timers

/-- A count is lowered as a natural number is. -/
theorem toNat_lower (count : UInt8) (amount : Nat) :
    (lower count amount).toNat = count.toNat - amount := by
  have hlt : count.toNat - amount < UInt8.size := (Nat.sub_le _ _).trans_lt count.toNat_lt
  exact UInt8.toNat_ofNat_of_lt' hlt

/-- Among the integers too, what is left is what was there less what could
be taken off. -/
theorem lower_cast (count : UInt8) (amount : Nat) :
    ((lower count amount).toNat : ℤ) = count.toNat - min (count.toNat : ℤ) amount := by
  rw [toNat_lower]
  omega

/-- A count never rises when it is lowered. -/
theorem lower_le (count : UInt8) (amount : Nat) : lower count amount ≤ count := by
  rw [UInt8.le_iff_toNat_le, toNat_lower]
  exact Nat.sub_le _ _

/-- Taking all steps off at once comes to the same as going step by
step. -/
theorem ticks_eq_iterate (t : Timers) (n : Nat) (step : UInt8) :
    t.ticks n step = (fun t => t.tick step)^[n] t := by
  induction n with
  | zero => exact t.ticks_zero step
  | succ n ih => rw [ticks_succ, ih, Function.iterate_succ_apply']

/-- So many intervals and then some more are all of them at once. -/
theorem ticks_add (t : Timers) (a b : Nat) (step : UInt8) :
    t.ticks (a + b) step = (t.ticks a step).ticks b step := by
  rw [ticks_eq_iterate, ticks_eq_iterate, ticks_eq_iterate, Nat.add_comm,
    Function.iterate_add_apply]

end Timers

-- ====================================================== polls of a script

/-- Whether a call leaves it to the clock to run the timers down. -/
def Action.leavesTimers : Action → Bool
  | .load _ | .loadFile .. | .reset | .tick | .setDelay _ | .setSound _ => false
  | _ => true

/-- The instants at which a script looks at the clock, in their order. -/
def Script.polls : Script → List Instant
  | [] => []
  | (now, .settleClock) :: rest => now :: polls rest
  | _ :: rest => polls rest

/-- Only a settling is a poll. -/
theorem Script.polls_cons_of_ne {a : Action} (h : a ≠ .settleClock) (now : Instant)
    (rest : Script) : polls ((now, a) :: rest) = polls rest := by
  cases a with
  | settleClock => exact absurd rfl h
  | _ => rfl

namespace Machine

variable {m : Machine}

/-- A script leaves it to the clock to run the timers down: it has no call
for them but polls, it does not start over, and it runs neither FX15 nor
FX18. -/
structure LeavesTimers (m : Machine) (script : Script) : Prop where
  calls : ∀ call ∈ script, call.2.leavesTimers = true
  delay : ∀ x, .ran (.setDelay x) ∉ m.replies script
  sound : ∀ x, .ran (.setSound x) ∉ m.replies script

/-- What comes behind a call that leaves the timers alone leaves them
alone, too. -/
theorem LeavesTimers.rest {now : Instant} {a : Action} {rest : Script}
    (h : m.LeavesTimers ((now, a) :: rest)) : (m.perform now a).machine.LeavesTimers rest where
  calls := fun call hcall => h.calls call (List.mem_cons_of_mem _ hcall)
  delay := fun x hran => h.delay x (List.mem_cons_of_mem _ hran)
  sound := fun x hran => h.sound x (List.mem_cons_of_mem _ hran)

/-- A call that is no poll leaves the timers and the clock as they are. -/
theorem LeavesTimers.first {now : Instant} {a : Action} {rest : Script}
    (h : m.LeavesTimers ((now, a) :: rest)) (ha : a ≠ .settleClock) :
    (m.perform now a).machine.timers = m.timers ∧ (m.perform now a).machine.clock = m.clock := by
  have hcall : a.leavesTimers = true := h.calls (now, a) List.mem_cons_self
  cases a with
  | settleClock => exact absurd rfl ha
  | load | loadFile | reset | tick | setDelay | setSound => cases hcall
  | stop => exact ⟨rfl, rfl⟩
  | setKeys keys =>
      rw [perform_setKeys]
      exact ⟨rfl, rfl⟩
  | setKey code isDown =>
      simp only [perform, setKey]
      split
      · exact ⟨rfl, rfl⟩
      · exact ⟨rfl, rfl⟩
  | cycle =>
      have hreply : Reply.ofCycle m.cycle.reply ∈ m.replies ((now, .cycle) :: rest) :=
        List.mem_cons_self
      rw [perform_cycle]
      rcases m.cycle_stops_or_runs with hc | ⟨i, events, -, hexec, hran⟩
      · rw [hc]
        exact ⟨rfl, rfl⟩
      · rw [hran] at hreply
        have hfoot := exec_footprint hexec
        have hdelay : m.cycle.machine.timers.delay = m.timers.delay := by
          refine hfoot.delay fun x hi => h.delay x ?_
          rw [← hi]
          exact hreply
        have hsound : m.cycle.machine.timers.sound = m.timers.sound := by
          refine hfoot.sound fun x hi => h.sound x ?_
          rw [← hi]
          exact hreply
        have htimers : m.cycle.machine.timers
            = ⟨m.cycle.machine.timers.delay, m.cycle.machine.timers.sound⟩ := rfl
        rw [htimers, hdelay, hsound]
        exact ⟨rfl, hfoot.clock⟩

/-- All polls of a script come to the same as the last of them. -/
theorem run_timers {script : Script} :
    ∀ {m : Machine}, m.LeavesTimers script → script.polls.Pairwise (· ≤ ·) →
      (m.run script).timers = m.timers.ticks (m.clock.dueBy script.polls) m.config.timerStep
        ∧ (m.run script).clock
          = { m.clock with
              last := m.clock.last + m.clock.dueBy script.polls * m.clock.interval } := by
  induction script with
  | nil =>
      intro m _ _
      have hnone : m.clock.dueBy (Script.polls []) = 0 := rfl
      rw [hnone, Timers.ticks_zero, Nat.zero_mul]
      exact ⟨rfl, rfl⟩
  | cons call rest ih =>
      intro m hleaves hsorted
      obtain ⟨now, a⟩ := call
      rw [run_cons]
      by_cases ha : a = .settleClock
      · subst ha
        have hpolls : Script.polls ((now, .settleClock) :: rest) = now :: Script.polls rest := rfl
        have hsettle : (m.perform now .settleClock).machine
            = { m with
                timers := m.timers.ticks (m.clock.due now) m.config.timerStep
                clock := (m.clock.settle now).2 } := rfl
        rw [hpolls] at hsorted ⊢
        -- what is due is counted from where this poll leaves the clock
        obtain ⟨htimers, hclock⟩ := ih hleaves.rest hsorted.of_cons
        rw [htimers, hclock, hsettle, m.clock.dueBy_cons hsorted, Timers.ticks_add, Nat.add_mul,
          ← Nat.add_assoc]
        exact ⟨rfl, rfl⟩
      · obtain ⟨hfirst, hfirst'⟩ := hleaves.first ha
        rw [Script.polls_cons_of_ne ha] at hsorted ⊢
        obtain ⟨htimers, hclock⟩ := ih hleaves.rest hsorted
        rw [htimers, hclock, hfirst, hfirst', perform_config]
        exact ⟨rfl, rfl⟩

/-- No call makes a timer rise. -/
theorem timers_fall {script : Script} :
    ∀ {m : Machine}, m.LeavesTimers script → ∀ n,
      (m.run (script.take (n + 1))).timers.delay ≤ (m.run (script.take n)).timers.delay
        ∧ (m.run (script.take (n + 1))).timers.sound ≤ (m.run (script.take n)).timers.sound := by
  induction script with
  | nil =>
      intro m _ n
      rw [List.take_nil, List.take_nil]
      exact ⟨UInt8.le_refl _, UInt8.le_refl _⟩
  | cons call rest ih =>
      intro m hleaves n
      obtain ⟨now, a⟩ := call
      cases n with
      | succ n => exact ih hleaves.rest n
      | zero =>
          show (m.perform now a).machine.timers.delay ≤ m.timers.delay
            ∧ (m.perform now a).machine.timers.sound ≤ m.timers.sound
          by_cases ha : a = .settleClock
          · subst ha
            exact ⟨Timers.lower_le _ _, Timers.lower_le _ _⟩
          · rw [(hleaves.first ha).1]
            exact ⟨UInt8.le_refl _, UInt8.le_refl _⟩

-- ============================================================= the pace

private theorem fresh_interval (config : Config) (random : Random.Generator) (now : Instant) :
    (fresh config random now).clock.interval = config.timerInterval.toNat * 1000000 := rfl

private theorem loaded_interval (config : Config) (random : Random.Generator) (now : Instant)
    (program : Array UInt8) :
    (loaded config random now program).clock.interval = config.timerInterval.toNat * 1000000 := rfl

/-- The clock has the interval of the configuration. -/
def Paced (m : Machine) : Prop := m.clock.interval = m.config.timerInterval.toNat * 1000000

/-- No call changes the pace of the clock to another than the configured
one. -/
theorem Paced.perform (h : m.Paced) (now : Instant) (a : Action) :
    (m.perform now a).machine.Paced := by
  unfold Paced
  rw [perform_config]
  rcases a.kind_cases with hr | rfl | rfl | ⟨hr, hc⟩
  · rcases perform_of_restarts hr m now with hm | hm | ⟨program, hm⟩
    · rw [hm]
      exact h
    · rw [hm]
      exact fresh_interval _ _ now
    · rw [hm]
      exact loaded_interval _ _ now program
  · exact h
  · rw [perform_cycle]
    rcases m.cycle_stops_or_runs with hc | ⟨i, events, -, hexec, -⟩
    · rw [hc]
      exact h
    · rw [(exec_footprint hexec).clock]
      exact h
  · cases a with
    | load | loadFile | reset | stop => cases hr
    | cycle => exact absurd rfl hc
    | setKey code isDown =>
        show (m.setKey code isDown).machine.clock.interval = _
        unfold setKey
        split
        · exact h
        · exact h
    | setKeys keys =>
        rw [perform_setKeys]
        exact h
    | _ => exact h

/-- On a machine that a host can come by the clock goes at the configured
pace. -/
theorem Reachable.paced (hm : m.Reachable) : m.Paced := by
  induction hm with
  | new config entropy now => exact fresh_interval _ _ now
  | perform now a _ ih => exact ih.perform now a

-- ============================================================ the result

/-- The timers do not care how often the host polls.

Let a script leave it to the clock to run the timers down, and poll at
instants that do not decrease, `t` being the last. Then both timers have
lost as many steps as there are intervals between the last instant that
was accounted for and `t`, and stop at zero; and that last instant has
moved on by as many intervals. So any two ways to poll up to `t` leave the
same timers and the same clock, and no call ever makes a timer rise. -/
theorem decay_ignores_polling (hm : m.Reachable) {script : Script}
    (hleaves : m.LeavesTimers script) (hsorted : script.polls.Pairwise (· ≤ ·)) {t : Instant}
    (hlast : script.polls.getLast? = some t) :
    m.clock.due t = (t - m.clock.last) / (m.config.timerInterval.toNat * 1000000)
      ∧ ((m.run script).timers.delay.toNat : ℤ)
        = m.timers.delay.toNat
          - min (m.timers.delay.toNat : ℤ) (m.clock.due t * m.config.timerStep.toNat)
      ∧ ((m.run script).timers.sound.toNat : ℤ)
        = m.timers.sound.toNat
          - min (m.timers.sound.toNat : ℤ) (m.clock.due t * m.config.timerStep.toNat)
      ∧ (m.run script).clock.last
        = m.clock.last + m.clock.due t * (m.config.timerInterval.toNat * 1000000)
      ∧ (m.run script).timers
        = (fun timers => timers.tick m.config.timerStep)^[m.clock.due t] m.timers
      ∧ (∀ script' : Script, m.LeavesTimers script' → script'.polls.Pairwise (· ≤ ·) →
          script'.polls.getLast? = some t →
          (m.run script').timers = (m.run script).timers
          ∧ (m.run script').clock = (m.run script).clock)
      ∧ ∀ n, (m.run (script.take (n + 1))).timers.delay ≤ (m.run (script.take n)).timers.delay
        ∧ (m.run (script.take (n + 1))).timers.sound ≤ (m.run (script.take n)).timers.sound := by
  have hrun {script' : Script} (hleaves' : m.LeavesTimers script')
      (hsorted' : script'.polls.Pairwise (· ≤ ·)) (hlast' : script'.polls.getLast? = some t) :
      (m.run script').timers = m.timers.ticks (m.clock.due t) m.config.timerStep
        ∧ (m.run script').clock
          = { m.clock with last := m.clock.last + m.clock.due t * m.clock.interval } := by
    rw [← Clock.dueBy_of_last hlast']
    exact run_timers hleaves' hsorted'
  have hpaced : m.clock.interval = m.config.timerInterval.toNat * 1000000 := hm.paced
  obtain ⟨htimers, hclock⟩ := hrun hleaves hsorted hlast
  refine ⟨?_, ?_, ?_, ?_, ?_, ?_, timers_fall hleaves⟩
  · rw [← hpaced]
    rfl
  · rw [htimers, ← Nat.cast_mul]
    exact Timers.lower_cast _ _
  · rw [htimers, ← Nat.cast_mul]
    exact Timers.lower_cast _ _
  · rw [hclock, hpaced]
  · rw [htimers, Timers.ticks_eq_iterate]
  · intro script' hleaves' hsorted' hlast'
    obtain ⟨htimers', hclock'⟩ := hrun hleaves' hsorted' hlast'
    exact ⟨htimers'.trans htimers.symm, hclock'.trans hclock.symm⟩

/-- A program that runs in place for ever. -/
def inPlace : Array UInt8 := #[0x12, 0x00]

/-- The machine with both timers set. -/
def beforeDecay : Machine := (booted inPlace).run [(0, .setDelay 200), (0, .setSound 100)]

/-- Polls after half a second, after 2.3 and after three seconds, with an
instruction run in between. -/
def pollOften : Script :=
  [(500000000, .settleClock), (500000000, .cycle), (2300000000, .settleClock),
    (3000000000, .settleClock)]

/-- One poll after three seconds. -/
def pollOnce : Script := [(3000000000, .settleClock)]

private theorem beforeDecay_eq : beforeDecay = { booted inPlace with timers := ⟨200, 100⟩ } := by
  have hrun : ∀ m : Machine, m.run [(0, .setDelay 200), (0, .setSound 100)]
      = { m with timers := ⟨200, 100⟩ } := fun _ => rfl
  exact hrun _

private theorem pollOften_leaves {t : Target} (hrun : m.stopped = false)
    (hdec : Instr.decode? m.fetch = some (.jump t)) : m.LeavesTimers pollOften := by
  have hreplies : m.replies pollOften = [.done, .ran (.jump t), .done, .done] := by
    have hcalls : m.replies pollOften = [.done,
        Reply.ofCycle (m.settleClock 500000000).machine.cycle.reply, .done, .done] := rfl
    have hcycle := cycle_of_exec (m := (m.settleClock 500000000).machine) hrun hdec rfl
    rw [hcalls, hcycle]
    rfl
  refine ⟨by simp [pollOften, Action.leavesTimers], ?_, ?_⟩
  · rw [hreplies]
    simp
  · rw [hreplies]
    simp

/-- After three seconds 180 of the 200 are gone, and the 100 are gone
altogether, however often was polled. -/
theorem three_seconds_decay :
    beforeDecay.Reachable
      ∧ (beforeDecay.run pollOften).timers.delay = 20
      ∧ (beforeDecay.run pollOften).timers.sound = 0
      ∧ (beforeDecay.run pollOften).clock.last = 3000000000
      ∧ (beforeDecay.run pollOnce).timers = (beforeDecay.run pollOften).timers
      ∧ (beforeDecay.run pollOnce).clock = (beforeDecay.run pollOften).clock := by
  have hreach : beforeDecay.Reachable := (reachable_booted (by decide)).run _
  have hdec : Instr.decode? beforeDecay.fetch = some (.jump ⟨0x200, by decide⟩) := by
    rw [beforeDecay_eq]
    exact Memory.decode_ofProgram (k := 0) rfl rfl (by decide) rfl
  have hstopped : beforeDecay.stopped = false := by
    rw [beforeDecay_eq]
    rfl
  have hclock : beforeDecay.clock = ⟨1000000000, 0⟩ := by
    rw [beforeDecay_eq]
    rfl
  have htimers : beforeDecay.timers = ⟨200, 100⟩ := by
    rw [beforeDecay_eq]
  have hconfig : beforeDecay.config = {} := by
    rw [beforeDecay_eq]
    rfl
  have honce : beforeDecay.LeavesTimers pollOnce := by
    have hreplies : ∀ m : Machine, m.replies pollOnce = [.done] := fun _ => rfl
    refine ⟨by simp [pollOnce, Action.leavesTimers], ?_, ?_⟩
    · rw [hreplies]
      simp
    · rw [hreplies]
      simp
  have hdue : beforeDecay.clock.due 3000000000 = 3 := by
    rw [hclock]
    decide
  obtain ⟨-, hdelay, hsound, hlast, -, hany, -⟩ := decay_ignores_polling hreach
    (pollOften_leaves hstopped hdec) (by decide) (t := 3000000000) rfl
  obtain ⟨hsame, hsame'⟩ := hany pollOnce honce (by decide) rfl
  rw [hdue, htimers, hconfig] at hdelay hsound
  rw [hdue, hclock, hconfig] at hlast
  refine ⟨hreach, UInt8.toNat_inj.mp ?_, UInt8.toNat_inj.mp ?_, hlast, hsame, hsame'⟩
  · exact Int.ofNat_inj.mp (hdelay.trans (by decide))
  · exact Int.ofNat_inj.mp (hsound.trans (by decide))

end Machine

end Chip8
