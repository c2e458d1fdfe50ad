/-
The log tells what the machine is doing.

A listener that keeps everything down to debug messages gets a record for
every event. From these records alone, and in their order, a reader can
tell at any time whether the machine is stopped, how many calls are open,
and whether it waits for a key (`Control.follow`). The reader looks at
messages, and at the one field that says how many calls are open; before
the first reset it knows nothing, but building a machine reports one.

# One call

A reader who knew how the machine stood before a call knows it after the
events of the call (`perform_control`). Most instructions cause no event
and leave all three alone; a call, a return and FX0A report what they do;
and the bytes that the font refuses change nothing.

# Halting and stopping

A cycle that fails reports that it halts the machine, once, and so does a
stop that finds the machine running; nothing else reports either
(`events_cases`). So both can be counted in the log.
-/
import Chip8.Proofs.Course

namespace Chip8

-- ========================================================== the records

/-- An event as a listener is given it. -/
structure Record where
  level : Level
  message : String
  fields : List (String × String)
  deriving DecidableEq

namespace Record

/-- Whether a record carries a message. -/
def hasMessage (message : String) (r : Record) : Bool := r.message == message

def field? (r : Record) (label : String) : Option String := r.fields.lookup label

end Record

namespace Event

def record (e : Event) : Record := ⟨e.level, e.message, e.fields⟩

/-- Whether an event reports that the machine was halted or stopped. -/
def closes : Event → Bool
  | .halting _ | .stopped _ => true
  | _ => false

/-- No event but a halt and a stop has a record with either message. -/
theorem not_hasMessage {e : Event} (h : e.closes = false) :
    e.record.hasMessage "halting" = false ∧ e.record.hasMessage "stopped" = false := by
  cases e with
  | halting | stopped => cases h
  | _ => exact ⟨rfl, rfl⟩

/-- No event is slighter than a debug message. -/
theorem filter_debug (events : List Event) :
    events.filter (·.isAtLeast .debug) = events := by
  rw [List.filter_eq_self]
  intro e _
  cases e with
  | _ => rfl

end Event

namespace Call

/-- The records of a call that a listener is given which keeps everything
down to a level. -/
def records (c : Call) (least : Level) : List Record :=
  (c.step.events.filter (·.isAtLeast least)).map Event.record

/-- At the lowest level there is a record of every event. -/
theorem records_debug (c : Call) : c.records .debug = c.step.events.map Event.record := by
  unfold records
  rw [Event.filter_debug]

/-- Whether a call is a stop that finds the machine running. -/
def stopsRunning (c : Call) : Bool :=
  match c.action with
  | .stop => !c.before.stopped
  | _ => false

end Call

namespace History

/-- Everything that was reported, from the building of the machine on. -/
def events (h : History) : List Event :=
  (Machine.new h.config h.entropy h.start).events ++ h.course.flatMap fun c => c.step.events

/-- The records that a listener was given which keeps everything down to a
level. -/
def log (h : History) (least : Level) : List Record :=
  (h.events.filter (·.isAtLeast least)).map Event.record

/-- The log is what was reported when the machine was built, and behind it
what each call reports. -/
theorem log_eq (h : History) :
    h.log .debug = Event.reset.record :: h.course.flatMap fun c => c.records .debug := by
  unfold log events
  rw [Event.filter_debug, List.map_append, List.map_flatMap]
  simp only [Call.records_debug]
  rfl

end History

-- =================================================== following the log

/-- How a machine stands: whether it is stopped, how many calls are open,
and whether it waits for a key. -/
structure Control where
  stopped : Bool
  depth : Nat
  isWaiting : Bool
  deriving DecidableEq

namespace Control

def ofSnapshot (s : Snapshot) : Control := ⟨s.stopped, s.stack.length, s.isWaiting⟩

/-- What a reader of the log makes of a record, if `c` is what it knew
before. -/
def follow (c : Option Control) (r : Record) : Option Control :=
  match r.message with
  | "reset" => some ⟨true, 0, false⟩
  | "loaded program" => c.map fun c => { c with stopped := false }
  | "stopped" | "halting" => c.map fun c => { c with stopped := true }
  | "call" | "return" => do
    let depth ← (← r.field? "depth").toNat?
    c.map fun c => { c with depth := depth }
  | "waiting for key" => c.map fun c => { c with isWaiting := true }
  | "key pressed" => c.map fun c => { c with isWaiting := false }
  | _ => c

/-- What an event says of how the machine stands. -/
def after (c : Control) : Event → Control
  | .reset => ⟨true, 0, false⟩
  | .loaded _ => { c with stopped := false }
  | .stopped _ | .halting _ => { c with stopped := true }
  | .called _ depth | .returned _ depth => { c with depth := depth }
  | .awaitingKey _ => { c with isWaiting := true }
  | .keyPressed .. => { c with isWaiting := false }
  | .readFile _ | .fontKept _ | .ticked .. | .unknownKey _ => c

/-- A record says what the event says that it is of. -/
theorem follow_record (c : Control) (e : Event) : follow (some c) e.record = some (c.after e) := by
  cases e with
  | called target depth | returned target depth =>
      show depth.repr.toNat?.bind (fun n => some { c with depth := n }) = _
      rw [Nat.toNat?_repr]
      rfl
  | _ => rfl

/-- Reading records is following the events that they are records of. -/
theorem foldl_follow (events : List Event) :
    ∀ c : Control, (events.map Event.record).foldl follow (some c)
      = some (events.foldl after c) := by
  induction events with
  | nil => intro c; rfl
  | cons e rest ih =>
      intro c
      rw [List.map_cons, List.foldl_cons, List.foldl_cons, follow_record, ih]

/-- A store that was kept off the font says nothing of how the machine
stands. -/
theorem foldl_after_fontKept (cells : List Cell) (c : Control) :
    (cells.map Event.fontKept).foldl after c = c := by
  induction cells with
  | nil => rfl
  | cons cell rest ih => exact ih

end Control

namespace Machine

variable {m m' : Machine} {i : Instr} {events : List Event}

-- ====================================================== one instruction

/-- How the machine stands. -/
def control (m : Machine) : Control := ⟨m.stopped, m.stack.length, m.keypad.isWaiting⟩

/-- How a machine stands can be read off its snapshot. -/
theorem ofSnapshot_snapshot (m : Machine) : Control.ofSnapshot m.snapshot = m.control := by
  show (⟨m.stopped, m.stack.reverse.length, m.keypad.isWaiting⟩ : Control) = _
  rw [List.length_reverse]
  rfl

/-- The instructions that neither call, nor return, nor wait report the
bytes that the font refused, and nothing else. -/
theorem exec_events (h : m.exec i = .ok (m', events)) (hcall : ∀ t, i ≠ .call t)
    (hret : i ≠ .ret) (hawait : ∀ x, i ≠ .awaitKey x) :
    ∃ cells : List Cell, events = cells.map .fontKept := by
  cases i with
  | call t => exact absurd rfl (hcall t)
  | ret => exact absurd rfl hret
  | awaitKey x => exact absurd rfl (hawait x)
  | decimal x | store x =>
      cases h
      exact ⟨_, rfl⟩
  | _ =>
      cases h
      exact ⟨[], rfl⟩

/-- An instruction that neither calls nor returns nor waits leaves the
machine standing as it was. -/
theorem control_of_footprint (h : Footprint i m m') (hcall : ∀ t, i ≠ .call t) (hret : i ≠ .ret)
    (hawait : ∀ x, i ≠ .awaitKey x) : m'.control = m.control := by
  unfold control Keypad.isWaiting
  rw [h.stopped, h.stack hcall hret, h.wait hawait]

/-- What an instruction reports, and what it makes of how the machine
stood: the two agree. -/
theorem exec_reports (h : m.exec i = .ok (m', events)) :
    (∃ t depth, events = [.called t depth] ∧ m'.control = { m.control with depth := depth })
      ∨ (∃ t depth, events = [.returned t depth] ∧ m'.control = { m.control with depth := depth })
      ∨ (∃ x, events = [.awaitingKey x] ∧ m'.control = { m.control with isWaiting := true })
      ∨ (∃ x key, events = [.keyPressed x key] ∧ m'.control = { m.control with isWaiting := false })
      ∨ (∃ cells : List Cell, events = cells.map .fontKept ∧ m'.control = m.control) := by
  by_cases hcall : ∃ t, i = .call t
  · obtain ⟨t, rfl⟩ := hcall
    rw [exec_call (call_pushes h).1] at h
    cases h
    exact Or.inl ⟨_, _, rfl, rfl⟩
  by_cases hret : i = .ret
  · subst hret
    cases hstack : m.stack with
    | nil =>
        rw [exec_ret_of_empty hstack] at h
        cases h
    | cons target rest =>
        rw [exec_ret hstack] at h
        cases h
        exact Or.inr (Or.inl ⟨_, _, rfl, rfl⟩)
  by_cases hawait : ∃ x, i = .awaitKey x
  · obtain ⟨x, rfl⟩ := hawait
    have hexec : m.exec (.awaitKey x) = .ok (m.awaitKey x) := rfl
    rw [hexec] at h
    cases hw : m.keypad.wait with
    | none =>
        rw [awaitKey_begins hw] at h
        cases h
        exact Or.inr (Or.inr (Or.inl ⟨x, rfl, rfl⟩))
    | some w =>
        cases hf : Keys.fresh? w.seen m.keypad.down with
        | none =>
            rw [awaitKey_goes_on hw hf] at h
            cases h
            refine Or.inr (Or.inr (Or.inr (Or.inr ⟨[], rfl, ?_⟩)))
            simp [control, Keypad.isWaiting, hw]
        | some key =>
            rw [awaitKey_ends hw hf] at h
            cases h
            exact Or.inr (Or.inr (Or.inr (Or.inl ⟨_, _, rfl, rfl⟩)))
  -- All others leave all three alone.
  · have hcall' : ∀ t, i ≠ .call t := fun t hi => hcall ⟨t, hi⟩
    have hawait' : ∀ x, i ≠ .awaitKey x := fun x hi => hawait ⟨x, hi⟩
    obtain ⟨cells, hevents⟩ := exec_events h hcall' hret hawait'
    have hcontrol := control_of_footprint (exec_footprint h) hcall' hret hawait'
    exact Or.inr (Or.inr (Or.inr (Or.inr ⟨cells, hevents, hcontrol⟩)))

/-- What an instruction reports leads from how the machine stood to how it
stands. -/
theorem exec_control (h : m.exec i = .ok (m', events)) :
    events.foldl Control.after m.control = m'.control := by
  rcases exec_reports h with ⟨t, depth, rfl, hm⟩ | ⟨t, depth, rfl, hm⟩ | ⟨x, rfl, hm⟩
    | ⟨x, key, rfl, hm⟩ | ⟨cells, rfl, hm⟩
  · exact hm.symm
  · exact hm.symm
  · exact hm.symm
  · exact hm.symm
  · rw [Control.foldl_after_fontKept, hm]

/-- No instruction that goes through reports a halt or a stop. -/
theorem exec_not_closes (h : m.exec i = .ok (m', events)) : ∀ e ∈ events, e.closes = false := by
  rcases exec_reports h with ⟨t, depth, rfl, -⟩ | ⟨t, depth, rfl, -⟩ | ⟨x, rfl, -⟩
    | ⟨x, key, rfl, -⟩ | ⟨cells, rfl, -⟩
  all_goals simp [Event.closes]

-- ============================================================= one call

/-- What a cycle reports leads from how the machine stood to how it stands. -/
theorem cycle_control (m : Machine) :
    m.cycle.events.foldl Control.after m.control = m.cycle.machine.control := by
  rcases m.cycle_cases with ⟨-, hc⟩ | ⟨-, -, hc⟩ | ⟨i, f, -, -, -, hc⟩
    | ⟨i, m', events, -, -, hexec, hc⟩
  · rw [hc]
    rfl
  · rw [hc]
    rfl
  · rw [hc]
    rfl
  · rw [hc]
    exact exec_control hexec

theorem load_control (m : Machine) (now : Instant) (program : Array UInt8) :
    (m.load now program).events.foldl Control.after m.control
      = (m.load now program).machine.control := by
  rcases m.load_cases now program with hload | hload
  · rw [hload]
    rfl
  · rw [hload]
    rfl

/-- What a call reports leads from how the machine stood to how it
stands. -/
theorem perform_control (m : Machine) (now : Instant) (a : Action) :
    (m.perform now a).events.foldl Control.after m.control
      = (m.perform now a).machine.control := by
  cases a with
  | load program => exact m.load_control now program
  | loadFile path contents =>
      cases contents with
      | error problem => rfl
      | ok program => exact m.load_control now program
  | stop =>
      simp only [perform, stop, Outcome.map]
      split
      next hstop =>
        show m.control = ⟨true, m.stack.length, m.keypad.isWaiting⟩
        rw [← hstop]
        rfl
      next => rfl
  | cycle => exact m.cycle_control
  | settleClock =>
      simp only [perform, settleClock, Outcome.map]
      split
      · rfl
      · rfl
  | setKey code isDown =>
      simp only [perform, setKey]
      split
      · rfl
      · rfl
  | reset | tick | setDelay | setSound | setKeys => rfl

-- ================================================= halting and stopping

/-- No load reports a halt or a stop. -/
theorem load_not_closes (m : Machine) (now : Instant) (program : Array UInt8) :
    ∀ e ∈ (m.load now program).events, e.closes = false := by
  rcases m.load_cases now program with hload | hload
  · rw [hload]
    simp [Event.closes]
  · rw [hload]
    exact List.forall_mem_nil _

/-- A cycle that fails reports that it halts the machine, and nothing
else; any other cycle reports no such thing. -/
theorem cycle_closes (m : Machine) :
    (Action.faults .cycle (.ofCycle m.cycle.reply) = true ∧ ∃ f, m.cycle.events = [.halting f])
      ∨ (Action.faults .cycle (.ofCycle m.cycle.reply) = false
        ∧ ∀ e ∈ m.cycle.events, e.closes = false) := by
  rcases m.cycle_cases with ⟨-, hc⟩ | ⟨-, -, hc⟩ | ⟨i, f, -, -, -, hc⟩
    | ⟨i, m', events, -, -, hexec, hc⟩
  · rw [hc]
    exact Or.inr ⟨rfl, List.forall_mem_nil _⟩
  · rw [hc]
    exact Or.inl ⟨rfl, _, rfl⟩
  · rw [hc]
    exact Or.inl ⟨rfl, f.fault, rfl⟩
  · rw [hc]
    exact Or.inr ⟨rfl, exec_not_closes hexec⟩

/-- What a call reports of halting and stopping. A cycle that fails
reports that it halts the machine, a stop that finds the machine running
reports that, and no other call reports either. -/
theorem events_cases (m : Machine) (now : Instant) (a : Action) :
    (a = .cycle ∧ a.faults (m.perform now a).reply = true
        ∧ ∃ f, (m.perform now a).events = [.halting f])
      ∨ (a = .stop ∧ m.stopped = false ∧ (m.perform now a).events = [.stopped m.pc])
      ∨ (a.faults (m.perform now a).reply = false ∧ (a = .stop → m.stopped = true)
        ∧ ∀ e ∈ (m.perform now a).events, e.closes = false) := by
  cases a with
  | load program =>
      exact Or.inr (Or.inr ⟨rfl, by simp, m.load_not_closes now program⟩)
  | loadFile path contents =>
      refine Or.inr (Or.inr ⟨rfl, by simp, ?_⟩)
      cases contents with
      | error problem => exact List.forall_mem_nil _
      | ok program => exact List.forall_mem_cons.mpr ⟨rfl, m.load_not_closes now program⟩
  | stop =>
      right
      simp only [perform, stop, Outcome.map]
      cases hstop : m.stopped with
      | true => exact Or.inr ⟨rfl, fun _ => rfl, List.forall_mem_nil _⟩
      | false => exact Or.inl ⟨trivial, rfl, rfl⟩
  | cycle =>
      rcases m.cycle_closes with ⟨hfaults, f, hevents⟩ | ⟨hfaults, hevents⟩
      · exact Or.inl ⟨rfl, hfaults, f, hevents⟩
      · exact Or.inr (Or.inr ⟨hfaults, by simp, hevents⟩)
  | settleClock =>
      refine Or.inr (Or.inr ⟨rfl, by simp, ?_⟩)
      simp only [perform, settleClock, Outcome.map]
      split
      · exact List.forall_mem_nil _
      · simp [Event.closes]
  | setKey code isDown =>
      refine Or.inr (Or.inr ⟨rfl, by simp, ?_⟩)
      simp only [perform, setKey]
      split
      · exact List.forall_mem_nil _
      · simp [Outcome.map, Event.closes]
  | reset => exact Or.inr (Or.inr ⟨rfl, by simp, by simp [perform, reset, Outcome.map, Event.closes]⟩)
  | tick | setDelay | setSound | setKeys =>
      exact Or.inr (Or.inr ⟨rfl, by simp, List.forall_mem_nil _⟩)

end Machine

namespace Call

/-- What a call reports leads from how the machine stood to how it stands. -/
theorem control_after (c : Call) :
    c.step.events.foldl Control.after c.before.machine.control = c.step.board.machine.control := by
  have hcontrol := c.before.machine.perform_control c.now c.action
  rw [c.outcome_step] at hcontrol
  exact hcontrol

/-- A call that failed in its cycle, one that stopped the machine, and any
other, with what they report of it. -/
theorem events_cases (c : Call) :
    (c.faults = true ∧ c.stopsRunning = false ∧ ∃ f, c.step.events = [.halting f])
      ∨ (c.faults = false ∧ c.stopsRunning = true ∧ ∃ pc, c.step.events = [.stopped pc])
      ∨ (c.faults = false ∧ c.stopsRunning = false
        ∧ ∀ e ∈ c.step.events, e.closes = false) := by
  have hcases := c.before.machine.events_cases c.now c.action
  rw [c.outcome_step] at hcases
  obtain ⟨b, now, a⟩ := c
  rcases hcases with ⟨rfl, hfaults, f, hevents⟩ | ⟨rfl, hrun, hevents⟩ | ⟨hfaults, hstop, hevents⟩
  · exact Or.inl ⟨hfaults, rfl, f, hevents⟩
  · have hstops : (⟨b, now, .stop⟩ : Call).stopsRunning = true := by
      show (!b.stopped) = true
      rw [show b.stopped = false from hrun]
      rfl
    exact Or.inr (Or.inl ⟨rfl, hstops, _, hevents⟩)
  · refine Or.inr (Or.inr ⟨hfaults, ?_, hevents⟩)
    cases a with
    | stop =>
        show (!b.stopped) = false
        rw [show b.stopped = true from hstop rfl]
        rfl
    | _ => rfl

/-- A call reports once that the machine halts if it is a cycle that fails,
and once that it is stopped if it is a stop that finds it running; and
neither if it is not. -/
theorem countP_hasMessage (c : Call) :
    (c.records .debug).countP (Record.hasMessage "halting") = c.faults.toNat
      ∧ (c.records .debug).countP (Record.hasMessage "stopped") = c.stopsRunning.toNat := by
  rw [records_debug]
  rcases c.events_cases with ⟨hfaults, hstops, f, hevents⟩ | ⟨hfaults, hstops, pc, hevents⟩
    | ⟨hfaults, hstops, hevents⟩
  · rw [hfaults, hstops, hevents]
    exact ⟨rfl, rfl⟩
  · rw [hfaults, hstops, hevents]
    exact ⟨rfl, rfl⟩
  · rw [hfaults, hstops, List.countP_map, List.countP_map]
    refine ⟨List.countP_eq_zero.mpr fun e he => ?_, List.countP_eq_zero.mpr fun e he => ?_⟩
    · exact Bool.eq_false_iff.mp (Event.not_hasMessage (hevents e he)).1
    · exact Bool.eq_false_iff.mp (Event.not_hasMessage (hevents e he)).2

end Call

-- ======================================================== the contract

/-- The events of a course lead from how the machine stood before it to how
it stands behind it. -/
theorem Board.foldl_course (script : Script) :
    ∀ b : Board,
      ((b.course script).flatMap fun c => c.step.events).foldl Control.after b.machine.control
        = (b.run script).machine.control := by
  induction script with
  | nil => intro b; rfl
  | cons call rest ih =>
      intro b
      obtain ⟨now, a⟩ := call
      have hstep : (b.perform now a).events.foldl Control.after b.machine.control
          = (b.perform now a).board.machine.control := Call.control_after ⟨b, now, a⟩
      rw [course_cons, List.flatMap_cons, List.foldl_append, run_cons, ← ih, ← hstep]
      rfl

namespace History

/-- What is counted once in the records of some calls, and never when the
machine is built, is counted in the log as often as there are such
calls. -/
theorem countP_log (h : History) {p : Record → Bool} {q : Call → Bool}
    (hreset : p Event.reset.record = false)
    (hcall : ∀ c : Call, (c.records .debug).countP p = (q c).toNat) :
    (h.log .debug).countP p = h.course.countP q := by
  rw [log_eq, List.countP_cons, hreset]
  induction h.course with
  | nil => rfl
  | cons c rest ih =>
      rw [List.flatMap_cons, List.countP_append, hcall, List.countP_cons, Nat.add_assoc, ih,
        Nat.add_comm]
      cases q c with
      | true => rfl
      | false => rfl

/-- The log replays how the machine stands.

After any history, and so after each of its calls, what a reader makes of
the records down to debug messages, knowing nothing before the first, is
whether the machine is stopped, how many calls are open, and whether it
waits for a key. The records of a call say once that the machine halts if
the call is a cycle that failed, and once that it was stopped if the call
is a stop that found it running, and never if not; so in the whole log
there are as many such records as such calls. -/
theorem log_replays_control (h : History) :
    (h.log .debug).foldl Control.follow none = some (Control.ofSnapshot h.board.snapshot)
      ∧ (∀ c ∈ h.course,
          (c.records .debug).countP (Record.hasMessage "halting") = c.faults.toNat
          ∧ (c.records .debug).countP (Record.hasMessage "stopped") = c.stopsRunning.toNat)
      ∧ (h.log .debug).countP (Record.hasMessage "halting") = h.course.countP Call.faults
      ∧ (h.log .debug).countP (Record.hasMessage "stopped") = h.course.countP Call.stopsRunning := by
  refine ⟨?_, fun c _ => c.countP_hasMessage, h.countP_log rfl fun c => c.countP_hasMessage.1,
    h.countP_log rfl fun c => c.countP_hasMessage.2⟩
  have hfold := Board.foldl_course h.calls (Board.built h.config h.entropy h.start)
  have hrecords : (h.course.flatMap fun c => c.records .debug)
      = (h.course.flatMap fun c => c.step.events).map Event.record := by
    rw [List.map_flatMap]
    simp only [Call.records_debug]
  rw [log_eq, List.foldl_cons, hrecords]
  -- From the record of the reset on, the reader knows how the machine stands.
  show ((h.course.flatMap _).map _).foldl Control.follow (some ⟨true, 0, false⟩) = _
  rw [Control.foldl_follow, ← Board.snapshot_machine, Machine.ofSnapshot_snapshot]
  exact congrArg some hfold

/-- A subroutine is entered, and the host stops the machine in it. -/
def stoppedInside : History :=
  ⟨{}, Random.keyOfSeed 0, 0, [(1, .load Machine.returnAtOnce), (2, .cycle), (3, .stop)]⟩

/-- The calls of that history: the second enters the subroutine, and the
third finds the machine running there. -/
theorem course_stoppedInside :
    ∃ b b₁ b₂, stoppedInside.course
        = [⟨b, 1, .load Machine.returnAtOnce⟩, ⟨b₁, 2, .cycle⟩, ⟨b₂, 3, .stop⟩]
      ∧ (b.perform 1 (.load Machine.returnAtOnce)).events = [.reset, .loaded 6]
      ∧ (b₁.perform 2 .cycle).events = [.called 0x204 1]
      ∧ b₂.stopped = false := by
  unfold course
  generalize Board.built _ _ _ = b
  obtain ⟨b₁, hload, hrun, hdec, hcalls, -⟩ :=
    Board.load_first Machine.returnAtOnce (i := .call ⟨0x204, by decide⟩) (by decide) rfl b 1
  have hroom : b₁.calls.used < stackDepth := by
    rw [hcalls]
    decide
  have hexec := b₁.exec_call ⟨0x204, by decide⟩
  rw [dif_pos hroom] at hexec
  have hcycle := Board.cycle_of_exec hrun hdec hexec
  refine ⟨b, b₁, (b₁.perform 2 .cycle).board, ?_, ?_, ?_, ?_⟩
  · have hcourse : b.course stoppedInside.calls
        = [⟨b, 1, .load Machine.returnAtOnce⟩,
          ⟨(b.perform 1 (.load Machine.returnAtOnce)).board, 2, .cycle⟩,
          ⟨((b.perform 1 (.load Machine.returnAtOnce)).board.perform 2 .cycle).board, 3, .stop⟩] :=
      rfl
    rw [hcourse, hload]
  · rw [hload]
    rfl
  · rw [Board.perform_cycle, hcycle]
    show [Event.called _ (b₁.calls.used + 1)] = _
    rw [hcalls]
    rfl
  · rw [Board.perform_cycle, hcycle]
    exact hrun

/-- The log shows that the machine was stopped with one call open. -/
theorem stoppedInside_control :
    (stoppedInside.log .debug).map Record.message
        = ["reset", "reset", "loaded program", "call", "stopped"]
      ∧ Control.ofSnapshot stoppedInside.board.snapshot = ⟨true, 1, false⟩
      ∧ ∃ c ∈ stoppedInside.course, c.stopsRunning = true
        ∧ (c.records .debug).countP (Record.hasMessage "stopped") = 1 := by
  obtain ⟨b, b₁, b₂, hcourse, hload, hcycle, hrun⟩ := course_stoppedInside
  have hstop : (b₂.perform 3 .stop).events = [.stopped b₂.pc] := by
    show (if b₂.stopped then [] else [Event.stopped b₂.pc]) = _
    rw [hrun]
    rfl
  have hlog : stoppedInside.log .debug = Event.reset.record
      :: ([.reset, .loaded 6, .called 0x204 1, .stopped b₂.pc] : List Event).map Event.record := by
    rw [log_eq, hcourse]
    simp only [List.flatMap_cons, List.flatMap_nil, Call.records_debug, Call.step, hload, hcycle,
      hstop]
    rfl
  obtain ⟨hfold, hcalls, -, -⟩ := stoppedInside.log_replays_control
  have hstops : (⟨b₂, 3, .stop⟩ : Call).stopsRunning = true := by
    show (!b₂.stopped) = true
    rw [hrun]
    rfl
  have hmem : ⟨b₂, 3, .stop⟩ ∈ stoppedInside.course := by
    rw [hcourse]
    simp
  have hcount := (hcalls _ hmem).2
  rw [hstops] at hcount
  refine ⟨?_, ?_, _, hmem, hstops, hcount⟩
  · rw [hlog]
    rfl
  · rw [hlog, List.foldl_cons] at hfold
    exact (Option.some.inj ((Control.foldl_follow _ ⟨true, 0, false⟩).symm.trans hfold)).symm

end History

end Chip8
