/-
Whether the machine is stopped is a latch that only a load opens.

# The step

A call that starts the machine opens the latch, one that halts it closes
it, and all others leave it as it was (`Call.stopped_after`). While the
latch is closed a cycle does nothing at all: it answers so, and neither
the board nor the events show that it was made.

# The course

So after a script the latch is open exactly if some call of its course
started the machine and none after that halted it (`running_iff`); on a
board that was just built the latch is closed, and some call has to come
first. Between two starts, once a cycle has failed the latch stays
closed, and no cycle that finds it closed can fail (`stopped_course`):
there is at most one failure from one start to the next.
-/
import Chip8.Proofs.Course

namespace Chip8

namespace Machine

variable {m : Machine}

/-- A cycle stops the machine if it faults, and changes nothing about it if
it does not. -/
theorem cycle_stopped (m : Machine) :
    m.cycle.machine.stopped = (Action.faults .cycle (.ofCycle m.cycle.reply) || m.stopped) := by
  rcases m.cycle_cases with ⟨-, hc⟩ | ⟨-, -, hc⟩ | ⟨i, f, -, -, -, hc⟩
    | ⟨i, m', events, -, -, hexec, hc⟩
  · rw [hc]
    rfl
  · rw [hc]
    rfl
  · rw [hc]
    rfl
  · rw [hc]
    exact (exec_footprint hexec).stopped

/-- After a call the machine is stopped if the call halted it, or if it
was stopped before and the call did not start it. -/
theorem perform_stopped (m : Machine) (now : Instant) (a : Action) :
    (m.perform now a).machine.stopped
      = (a.halts (m.perform now a).reply
        || (!a.starts (m.perform now a).reply && m.stopped)) := by
  cases a with
  | load program =>
      simp only [perform]
      rcases m.load_cases now program with hload | hload
      · rw [hload]
        rfl
      · rw [hload]
        rfl
  | loadFile path contents =>
      cases contents with
      | error problem => rfl
      | ok program =>
          simp only [perform, loadFile]
          rcases m.load_cases now program with hload | hload
          · rw [hload]
            rfl
          · rw [hload]
            rfl
  | cycle => exact m.cycle_stopped
  | reset => rfl
  | stop => rfl
  | setKey code isDown =>
      exact (perform_hostFrame (a := .setKey code isDown) rfl (by simp) m now).stopped
  | tick | settleClock | setDelay | setSound | setKeys => rfl

end Machine

-- ============================================================= one call

theorem Action.halts_of_starts {a : Action} {r : Reply} (h : a.starts r = true) :
    a.halts r = false := by
  cases a with
  | load | loadFile => rfl
  | _ => cases h

theorem Action.halts_of_faults {a : Action} {r : Reply} (h : a.faults r = true) :
    a.halts r = true := by
  cases a with
  | cycle => exact h
  | _ => cases h

namespace Call

variable {c : Call}

/-- A call decides about the flag: it sets it or clears it, or leaves it as
it was. -/
theorem stopped_after (c : Call) :
    c.step.board.stopped = (c.halts || (!c.starts && c.before.stopped)) := by
  have hstopped := c.before.machine.perform_stopped c.now c.action
  rw [c.outcome_step] at hstopped
  exact hstopped

theorem stopped_of_faults (h : c.faults = true) : c.step.board.stopped = true := by
  rw [c.stopped_after, show c.halts = true from Action.halts_of_faults h]
  rfl

/-- A cycle on a machine that is stopped answers so. -/
theorem reply_of_stopped (hstop : c.before.stopped = true) (hcycle : c.action = .cycle) :
    c.step.reply = .idle := by
  unfold step
  rw [hcycle, Board.perform_cycle, Board.cycle_of_stopped hstop]
  rfl

/-- A machine that is stopped does not fault. -/
theorem not_faults_of_stopped (hstop : c.before.stopped = true) : c.faults = false := by
  have hreply := reply_of_stopped hstop
  unfold faults
  cases ha : c.action with
  | cycle =>
      rw [hreply ha]
      rfl
  | _ => rfl

end Call

-- ============================================================ the course

/-- Some call of a list started the machine, and none after it halted
it. -/
def LeftRunning (calls : List Call) : Prop :=
  ∃ (before : List Call) (c : Call) (after : List Call),
    calls = before ++ c :: after ∧ c.starts = true ∧ ∀ d ∈ after, d.halts = false

/-- Without a call there is none that started the machine. -/
theorem not_leftRunning_nil : ¬ LeftRunning [] := by
  rintro ⟨before, c, after, h, -⟩
  cases before with
  | nil => cases h
  | cons _ _ => cases h

/-- A course leaves the machine running if its first call started it and
nothing halted it since, or if the rest of the course leaves it running. -/
theorem leftRunning_cons {c : Call} {rest : List Call} :
    LeftRunning (c :: rest)
      ↔ (c.starts = true ∧ ∀ d ∈ rest, d.halts = false) ∨ LeftRunning rest := by
  constructor
  · rintro ⟨before, c', after, h, hstarts, hafter⟩
    cases before with
    | nil =>
        cases h
        exact Or.inl ⟨hstarts, hafter⟩
    | cons x before =>
        cases h
        exact Or.inr ⟨before, c', after, rfl, hstarts, hafter⟩
  · rintro (⟨hstarts, hafter⟩ | ⟨before, c', after, rfl, hstarts, hafter⟩)
    · exact ⟨[], c, rest, rfl, hstarts, hafter⟩
    · exact ⟨c :: before, c', after, rfl, hstarts, hafter⟩

namespace Board

/-- A cycle on a board that runs never answers that nothing was run. -/
theorem cycle_ne_idle {b : Board} (hrun : b.stopped = false) : b.cycle.reply ≠ .ok none := by
  rcases b.cycle_cases with ⟨hstop, -⟩ | ⟨-, -, hc⟩ | ⟨i, g, -, -, -, hc⟩
    | ⟨i, b', events, -, -, -, hc⟩
  · rw [hrun] at hstop
    cases hstop
  · rw [hc]
    exact nofun
  · rw [hc]
    exact nofun
  · rw [hc]
    exact nofun

/-- After a script the machine runs if it ran before and no call halted it,
or if some call started it and none after that halted it. -/
theorem running_iff (script : Script) :
    ∀ b : Board, (b.run script).stopped = false ↔
      (b.stopped = false ∧ ∀ c ∈ b.course script, c.halts = false)
        ∨ LeftRunning (b.course script) := by
  induction script with
  | nil =>
      intro b
      show b.stopped = false ↔ _
      simp [course, not_leftRunning_nil]
  | cons call rest ih =>
      intro b
      obtain ⟨now, a⟩ := call
      have hstep : (b.perform now a).board.stopped = _ := Call.stopped_after ⟨b, now, a⟩
      rw [run_cons, course_cons, ih, hstep, leftRunning_cons]
      simp only [List.forall_mem_cons, Bool.or_eq_false_iff]
      -- A call that starts the machine makes up for whatever was before it.
      cases hstarts : (⟨b, now, a⟩ : Call).starts with
      | true =>
          have hhalts : (⟨b, now, a⟩ : Call).halts = false := Action.halts_of_starts hstarts
          simp only [hhalts, Bool.not_true, Bool.false_and, true_and]
          tauto
      | false =>
          simp only [Bool.not_false, Bool.true_and, Bool.false_eq_true, false_and, false_or]
          tauto

/-- As long as no call starts the machine, every call finds it stopped. -/
theorem stopped_course {script : Script} :
    ∀ {b : Board}, b.stopped = true → (∀ c ∈ b.course script, c.starts = false) →
      ∀ c ∈ b.course script, c.before.stopped = true := by
  induction script with
  | nil => intro b _ _; exact List.forall_mem_nil _
  | cons call rest ih =>
      intro b hstop hstarts
      obtain ⟨now, a⟩ := call
      rw [course_cons] at hstarts ⊢
      obtain ⟨hfirst, hrest⟩ := List.forall_mem_cons.mp hstarts
      have hstop' : (b.perform now a).board.stopped = _ := Call.stopped_after ⟨b, now, a⟩
      rw [hfirst, hstop, Bool.not_false, Bool.and_true, Bool.or_true] at hstop'
      exact List.forall_mem_cons.mpr ⟨hstop, ih hstop' hrest⟩

/-- What comes behind a cycle that failed, up to the next start, finds the
machine stopped. -/
theorem stopped_of_fault {script : Script} {b : Board} {first rest : List Call} {c : Call}
    (h : b.course script = first ++ c :: rest) (hstarts : ∀ d ∈ rest, d.starts = false)
    (hfault : c.faults = true) : ∀ d ∈ rest, d.before.stopped = true := by
  obtain ⟨before, after, rfl, -, hafter⟩ := course_eq_append h
  cases after with
  | nil => cases hafter
  | cons call after =>
      obtain ⟨now, a⟩ := call
      rw [course_cons] at hafter
      cases hafter
      exact stopped_course (Call.stopped_of_faults hfault) hstarts

/-- Up to the next start no more than one cycle fails. -/
theorem countP_faults_le {script : Script} :
    ∀ {b : Board}, (∀ c ∈ b.course script, c.starts = false) →
      (b.course script).countP Call.faults ≤ 1 := by
  induction script with
  | nil => intro b _; exact Nat.zero_le 1
  | cons call rest ih =>
      intro b hstarts
      obtain ⟨now, a⟩ := call
      have hrest : ∀ c ∈ (b.perform now a).board.course rest, c.starts = false :=
        (List.forall_mem_cons.mp hstarts).2
      rw [course_cons, List.countP_cons]
      split
      next hfault =>
        -- Nothing behind a failure starts the machine, so no cycle there can fail.
        have hnone : ((b.perform now a).board.course rest).countP Call.faults = 0 := by
          rw [List.countP_eq_zero]
          intro d hd hd'
          have hcourse : b.course ((now, a) :: rest) = [] ++ _ :: _ := b.course_cons now a rest
          have hstop := stopped_of_fault hcourse hrest hfault d hd
          rw [Call.not_faults_of_stopped hstop] at hd'
          cases hd'
        omega
      next => exact ih hrest

end Board

namespace History

/-- Whether the machine is stopped is a latch that only a load opens.

After any history the machine runs exactly if there was a load that was
done with no reset, no stop and no cycle that failed behind it. While it
is stopped a cycle answers that nothing was run, changes nothing on the
board, and causes no event; while it runs no cycle answers that. In a
part of the history without a load that was done, at most one cycle
fails, and every cycle behind that one answers that nothing was run,
whatever else is called in between. -/
theorem stopped_is_latch (h : History) (now : Instant) :
    (h.board.stopped = false ↔
        ∃ (before : List Call) (c : Call) (after : List Call),
          h.course = before ++ c :: after ∧ c.starts = true ∧ ∀ d ∈ after, d.halts = false)
      ∧ (h.board.stopped = true → h.board.perform now .cycle = ⟨.idle, h.board, []⟩)
      ∧ (h.board.stopped = false → (h.board.perform now .cycle).reply ≠ .idle)
      ∧ ∀ before part after : List Call, h.course = before ++ part ++ after →
          (∀ c ∈ part, c.starts = false) →
          part.countP Call.faults ≤ 1
            ∧ ∀ (first : List Call) (c : Call) (rest : List Call),
                part = first ++ c :: rest → c.faults = true →
                  ∀ d ∈ rest, d.action = .cycle → d.step.reply = .idle := by
  refine ⟨?_, fun hstop => ?_, fun hrun => ?_, fun before part after hcourse hstarts => ?_⟩
  · refine (Board.running_iff h.calls _).trans (or_iff_right fun hbuilt => ?_)
    cases hbuilt.1
  · rw [Board.perform_cycle, Board.cycle_of_stopped hstop]
    rfl
  · intro hidle
    refine Board.cycle_ne_idle hrun ?_
    rw [Board.perform_cycle] at hidle
    exact Reply.ofCycle_injective hidle
  · obtain ⟨script, behind, -, hscript, -⟩ := Board.course_eq_append hcourse
    obtain ⟨first, middle, -, -, rfl⟩ := Board.course_eq_append hscript
    refine ⟨Board.countP_faults_le hstarts, fun first' c rest hpart hfault d hd hcycle => ?_⟩
    have hrest : ∀ d ∈ rest, d.starts = false := fun d hd => hstarts d (by rw [hpart]; simp [hd])
    exact Call.reply_of_stopped (Board.stopped_of_fault hpart hrest hfault d hd) hcycle

/-- A program that begins with a return. -/
def strayReturn : Array UInt8 := #[0x00, 0xEE]

/-- A program fails at once, the host goes on for a while, and then loads
it again. -/
def retried : History :=
  ⟨{}, Random.keyOfSeed 0, 0, [(1, .load strayReturn), (2, .cycle), (3, .setDelay 9),
    (4, .cycle), (5, .load strayReturn)]⟩

/-- The program is loaded, and fails at once, as no call is open. -/
theorem strayReturn_faults (b : Board) (now now' : Instant) :
    (b.perform now (.load strayReturn)).reply = .done
      ∧ ((b.perform now (.load strayReturn)).board.perform now' .cycle).reply
        = .failed (.fault (.stackUnderflow 0x200)) := by
  obtain ⟨b', hload, hrun, hdec, hcalls, hpc⟩ :=
    Board.load_first strayReturn (by decide) rfl b now
  have hexec : b'.exec .ret = .error ⟨.stackUnderflow 0x200, b', []⟩ := by
    rw [Board.exec_ret, dif_neg (by rw [hcalls]; decide), hpc]
  rw [hload]
  refine ⟨rfl, ?_⟩
  rw [Board.perform_cycle, Board.cycle_of_fault hrun hdec hexec]
  rfl

/-- The first cycle fails, the second finds the machine stopped, and the
second load starts it again. -/
theorem second_cycle_is_idle :
    ∃ load failed between idle reload,
      retried.course = [load, failed, between, idle, reload]
        ∧ failed.step.reply = .failed (.fault (.stackUnderflow 0x200))
        ∧ idle.action = .cycle ∧ idle.step.reply = .idle
        ∧ retried.board.stopped = false := by
  obtain ⟨b, b₂, b₃, b₄, hcourse⟩ : ∃ b b₂ b₃ b₄, retried.course
      = [⟨b, 1, .load strayReturn⟩, ⟨(b.perform 1 (.load strayReturn)).board, 2, .cycle⟩,
        ⟨b₂, 3, .setDelay 9⟩, ⟨b₃, 4, .cycle⟩, ⟨b₄, 5, .load strayReturn⟩] := by
    unfold course
    generalize Board.built _ _ _ = b
    exact ⟨b, _, _, _, rfl⟩
  have hfailed := (strayReturn_faults b 1 2).2
  have hreload : (⟨b₄, 5, .load strayReturn⟩ : Call).starts = true := by
    unfold Call.starts Call.step
    rw [(strayReturn_faults b₄ 5 6).1]
    rfl
  generalize (b.perform 1 (.load strayReturn)).board = b₁ at hcourse hfailed
  have hfaults : (⟨b₁, 2, .cycle⟩ : Call).faults = true := by
    unfold Call.faults Call.step
    rw [hfailed]
    rfl
  have hcut : retried.course = [⟨b, 1, .load strayReturn⟩]
      ++ [⟨b₁, 2, .cycle⟩, ⟨b₂, 3, .setDelay 9⟩, ⟨b₃, 4, .cycle⟩]
      ++ [⟨b₄, 5, .load strayReturn⟩] := hcourse
  obtain ⟨hlatch, -, -, hparts⟩ := retried.stopped_is_latch 0
  obtain ⟨-, hidle⟩ := hparts _ _ _ hcut (by simp [Call.starts, Action.starts])
  have hreply := hidle [] ⟨b₁, 2, .cycle⟩ [⟨b₂, 3, .setDelay 9⟩, ⟨b₃, 4, .cycle⟩] rfl hfaults
    ⟨b₃, 4, .cycle⟩ (by simp) rfl
  exact ⟨_, _, _, _, _, hcourse, hfailed, rfl, hreply,
    hlatch.mpr ⟨[_, _, _, _], _, [], hcourse, hreload, List.forall_mem_nil _⟩⟩

end History

end Chip8
