/-
The discipline of the call stack: every call is matched by the return
that comes back behind it, whatever the program and its host do in
between.

# The step

A cycle does one of three things to the stack (`cycle_stack`): it leaves
it alone, it pushes the address behind a call that was run, or it pops
the address that a return goes to. No other call of a host touches the
stack, restarts apart (`perform_stack`).

# The run

The stack lists the newest address first, so what a call leaves is a
suffix of every later stack: the call's frame, its return address on top
of the older ones. A pop takes an address of the frame only when nothing
is above it, and then the depth is below the frame's. So a frame stays
for as long as the depth does not drop below it (`frame_kept`), and the
cycle at which it drops is the return that takes the frame's own address
(`frame_left`). Seen from the oldest address, as in a snapshot, the
frame is a prefix.
-/
import Chip8.Proofs.Footprint
import Chip8.Proofs.Memory

namespace Chip8.Machine

variable {m : Machine}

/-- How many calls are open. -/
def depth (m : Machine) : Nat := m.snapshot.stack.length

/-- The depth that is reported is the length of the stack. -/
theorem depth_eq (m : Machine) : m.depth = m.stack.length := List.length_reverse

-- ============================================================= the step

/-- A call that goes through found the stack not full, and put the address
behind itself on it. -/
theorem call_pushes {t : Target} {m' : Machine} {events : List Event}
    (h : m.exec (.call t) = .ok (m', events)) :
    m.stack.length < stackDepth ∧ m'.stack = (m.pc + 2) :: m.stack := by
  by_cases hroom : m.stack.length < stackDepth
  · rw [exec_call hroom] at h
    cases h
    exact ⟨hroom, rfl⟩
  · rw [exec_call_of_full (Nat.le_of_not_lt hroom)] at h
    cases h

/-- A return that goes through took the address that it went to off the
stack. -/
theorem ret_pops {m' : Machine} {events : List Event} (h : m.exec .ret = .ok (m', events)) :
    m.stack = m'.pc :: m'.stack := by
  cases hstack : m.stack with
  | nil =>
      rw [exec_ret_of_empty hstack] at h
      cases h
  | cons target rest =>
      rw [exec_ret hstack] at h
      cases h
      rfl

/-- No instruction but a call and a return touches the stack. -/
theorem exec_stack {i : Instr} {m' : Machine} {events : List Event}
    (h : m.exec i = .ok (m', events)) :
    m'.stack = m.stack
      ∨ (∃ t, i = .call t ∧ m.stack.length < stackDepth
        ∧ m'.stack = (m.pc + 2) :: m.stack)
      ∨ (i = .ret ∧ m.stack = m'.pc :: m'.stack) := by
  by_cases hcall : ∃ t, i = .call t
  · obtain ⟨t, rfl⟩ := hcall
    exact Or.inr (Or.inl ⟨t, rfl, call_pushes h⟩)
  · by_cases hret : i = .ret
    · subst hret
      exact Or.inr (Or.inr ⟨rfl, ret_pops h⟩)
    · exact Or.inl ((exec_footprint h).stack (fun t hi => hcall ⟨t, hi⟩) hret)

/-- What a cycle does to the stack. -/
theorem cycle_stack (m : Machine) :
    m.cycle.machine.stack = m.stack
      ∨ (∃ t, m.cycle.reply = .ok (some (.call t)) ∧ m.stack.length < stackDepth
        ∧ m.cycle.machine.stack = (m.pc + 2) :: m.stack)
      ∨ (m.cycle.reply = .ok (some .ret)
        ∧ m.stack = m.cycle.machine.pc :: m.cycle.machine.stack) := by
  rcases m.cycle_stops_or_runs with hc | ⟨i, events, -, hexec, hreply⟩
  · exact Or.inl (by rw [hc])
  · rw [hreply]
    rcases exec_stack hexec with hs | ⟨t, rfl, hcall⟩ | ⟨rfl, hret⟩
    · exact Or.inl hs
    · exact Or.inr (Or.inl ⟨t, rfl, hcall⟩)
    · exact Or.inr (Or.inr ⟨rfl, hret⟩)

/-- No call of a host that neither restarts nor cycles touches the stack. -/
theorem perform_stack {a : Action} (hr : a.restarts = false) (hc : a ≠ .cycle)
    (m : Machine) (now : Instant) : (m.perform now a).machine.stack = m.stack := by
  rcases a.kind_cases with hr' | rfl | hc' | ⟨hr', -⟩
  · rw [hr] at hr'
    cases hr'
  · rfl
  · exact absurd hc' hc
  · exact (perform_hostFrame hr' hc m now).stack

/-- No more calls are open than the stack has room for. -/
theorem depth_le (hm : m.Reachable) : m.depth ≤ stackDepth := by
  have hinv : Invariant fun m => m.stack.length ≤ stackDepth := {
    fresh := fun _ _ _ => Nat.zero_le _
    loaded := fun _ _ _ _ => Nat.zero_le _
    stop := id
    host := fun hm hframe => by
      rw [hframe.stack]
      exact hm
    exec := fun hm _ hexec => by
      rcases exec_stack hexec with hs | ⟨t, -, hroom, hs⟩ | ⟨-, hs⟩
      · rw [hs]
        exact hm
      · rw [hs, List.length_cons]
        exact hroom
      · rw [hs, List.length_cons] at hm
        omega }
  rw [depth_eq]
  exact hinv.of_reachable hm

-- ============================================================== the run

/-- The stack of a call may only shrink below a frame by losing it. -/
theorem frame_step {a : Action} (hr : a.restarts = false) {now : Instant}
    {frame : List UInt16} (hf : frame <:+ m.stack)
    (hd : frame.length ≤ (m.perform now a).machine.stack.length) :
    frame <:+ (m.perform now a).machine.stack := by
  by_cases hc : a = .cycle
  · subst hc
    rw [perform_cycle] at hd ⊢
    rcases m.cycle_stack with hs | ⟨t, -, -, hs⟩ | ⟨-, hs⟩
    · rw [hs]
      exact hf
    · rw [hs]
      exact hf.trans (List.suffix_cons _ _)
    · rw [hs] at hf
      rcases List.suffix_cons_iff.mp hf with heq | htail
      · rw [heq, List.length_cons] at hd
        omega
      · exact htail
  · rw [perform_stack hr hc]
    exact hf

/-- A frame stays for as long as the depth does not drop below it. -/
theorem frame_kept {frame : List UInt16} {script : Script} :
    ∀ {m : Machine}, (∀ call ∈ script, call.2.restarts = false) →
      (∀ pre, pre <+: script → frame.length ≤ (m.run pre).stack.length) →
      frame <:+ m.stack → frame <:+ (m.run script).stack := by
  induction script with
  | nil => intro m _ _ hf; exact hf
  | cons call rest ih =>
      intro m hr hd hf
      obtain ⟨now, a⟩ := call
      refine ih (fun call hcall => hr call (List.mem_cons_of_mem _ hcall)) ?_ ?_
      · intro pre hpre
        exact hd ((now, a) :: pre) (List.cons_prefix_cons.mpr ⟨rfl, hpre⟩)
      · refine frame_step (hr (now, a) List.mem_cons_self) hf ?_
        exact hd [(now, a)] (List.cons_prefix_cons.mpr ⟨rfl, List.nil_prefix⟩)

/-- The depth falls by one cycle at a time, so what is deeper stays
deeper as long as no cycle comes out at exactly that depth. -/
theorem deeper_kept {n : Nat} {script : Script} (hr : ∀ call ∈ script, call.2.restarts = false)
    (hstart : n < m.stack.length)
    (hne : ∀ pre now, pre ++ [(now, .cycle)] <+: script →
      (m.run (pre ++ [(now, .cycle)])).stack.length ≠ n) :
    n < (m.run script).stack.length := by
  induction script using List.reverseRecOn with
  | nil => exact hstart
  | append_singleton before call ih =>
      obtain ⟨now, a⟩ := call
      have hbefore : n < (m.run before).stack.length := by
        refine ih (fun call hcall => hr call (List.mem_append_left _ hcall)) ?_
        intro pre now' hpre
        exact hne pre now' (hpre.trans (List.prefix_append _ _))
      have hra : a.restarts = false := hr (now, a) (by simp)
      by_cases hc : a = .cycle
      · subst hc
        have hn := hne before now (List.prefix_refl _)
        rw [run_concat, perform_cycle] at hn ⊢
        rcases (m.run before).cycle_stack with hs | ⟨t, -, -, hs⟩ | ⟨-, hs⟩
        · rw [hs]
          exact hbefore
        · rw [hs, List.length_cons]
          omega
        · rw [hs, List.length_cons] at hbefore
          omega
      · rw [run_concat, perform_stack hra hc]
        exact hbefore

/-- A cycle that comes out below a frame that is still there has run the
return that goes to the frame's address. -/
theorem frame_left {ret : UInt16} {older : List UInt16} (hf : ret :: older <:+ m.stack)
    (hd : m.cycle.machine.stack.length = older.length) :
    m.cycle.reply = .ok (some .ret) ∧ m.cycle.machine.stack = older
      ∧ m.cycle.machine.pc = ret := by
  have hlen := hf.length_le
  rw [List.length_cons] at hlen
  rcases m.cycle_stack with hs | ⟨t, -, -, hs⟩ | ⟨hreply, hs⟩
  · rw [hs] at hd
    omega
  · rw [hs, List.length_cons] at hd
    omega
  · have hfull : ret :: older = m.stack := by
      refine hf.eq_of_length ?_
      rw [hs, List.length_cons, List.length_cons, hd]
    rw [hs] at hfull
    injection hfull with hpc hstack
    exact ⟨hreply, hstack.symm, hpc.symm⟩

-- =========================================================== the faults

/-- A cycle overflows the stack if and only if it runs, finds a call, and
the stack is full. -/
theorem overflow_iff (hm : m.Reachable) :
    (∃ pc, m.cycle.reply = .error (.stackOverflow pc))
      ↔ m.stopped = false ∧ (∃ t, Instr.decode? m.fetch = some (.call t))
        ∧ m.depth = stackDepth := by
  have hle := depth_le hm
  rw [depth_eq] at hle ⊢
  constructor
  · rintro ⟨pc, h⟩
    obtain ⟨hrun, ⟨-, hf⟩ | ⟨i, g, hdec, hexec, hf⟩⟩ := cycle_error_iff.mp h
    · cases hf
    · rcases exec_error_iff.mp hexec with ⟨t, rfl, hfull, -⟩ | ⟨-, -, rfl⟩
      · exact ⟨hrun, ⟨t, hdec⟩, Nat.le_antisymm hle hfull⟩
      · cases hf
  · rintro ⟨hrun, ⟨t, hdec⟩, hfull⟩
    have hexec := exec_call_of_full hfull.ge t
    exact ⟨m.pc, cycle_error_iff.mpr ⟨hrun, Or.inr ⟨.call t, _, hdec, hexec, rfl⟩⟩⟩

/-- A cycle underflows the stack if and only if it runs, finds a return,
and the stack is empty. -/
theorem underflow_iff (m : Machine) :
    (∃ pc, m.cycle.reply = .error (.stackUnderflow pc))
      ↔ m.stopped = false ∧ Instr.decode? m.fetch = some .ret ∧ m.depth = 0 := by
  rw [depth_eq, List.length_eq_zero_iff]
  constructor
  · rintro ⟨pc, h⟩
    obtain ⟨hrun, ⟨-, hf⟩ | ⟨i, g, hdec, hexec, hf⟩⟩ := cycle_error_iff.mp h
    · cases hf
    · rcases exec_error_iff.mp hexec with ⟨t, -, -, rfl⟩ | ⟨rfl, hempty, -⟩
      · cases hf
      · exact ⟨hrun, hdec, hempty⟩
  · rintro ⟨hrun, hdec, hempty⟩
    have hexec := exec_ret_of_empty hempty
    exact ⟨m.pc, cycle_error_iff.mpr ⟨hrun, Or.inr ⟨.ret, _, hdec, hexec, rfl⟩⟩⟩

-- ======================================================= the discipline

/-- Calls and returns match, on every machine that a host can come by.

The depth is at most 16; a call faults exactly at that depth, a return
exactly at depth 0, and a cycle that changes the stack has run a call or
a return. If the machine runs a call, then through any script without a
load or a reset, interleaved in whatever way:

- as long as the depth stays above what it was, the stack begins with
  what it was and the address behind the call;
- the first cycle that comes out at the old depth has run a return, and
  the stack is what it was, and the machine goes on behind the call. -/
theorem calls_match_returns (hm : m.Reachable) :
    m.depth ≤ 16
      ∧ ((∃ pc, m.cycle.reply = .error (.stackOverflow pc))
          ↔ m.stopped = false ∧ (∃ t, Instr.decode? m.fetch = some (.call t))
            ∧ m.depth = 16)
      ∧ ((∃ pc, m.cycle.reply = .error (.stackUnderflow pc))
          ↔ m.stopped = false ∧ Instr.decode? m.fetch = some .ret ∧ m.depth = 0)
      ∧ (m.cycle.machine.snapshot.stack ≠ m.snapshot.stack →
          (∃ t, m.cycle.reply = .ok (some (.call t))) ∨ m.cycle.reply = .ok (some .ret))
      ∧ ∀ (t : Target) (script : Script), m.cycle.reply = .ok (some (.call t)) →
          (∀ call ∈ script, call.2.restarts = false) →
          (∀ done, done <+: script →
            (∀ pre, pre <+: done → m.depth < (m.cycle.machine.run pre).depth) →
            m.snapshot.stack ++ [m.pc + 2]
              <+: (m.cycle.machine.run done).snapshot.stack)
          ∧ ∀ done now, done ++ [(now, .cycle)] <+: script →
            (∀ pre earlier, pre ++ [(earlier, .cycle)] <+: done →
              (m.cycle.machine.run (pre ++ [(earlier, .cycle)])).depth ≠ m.depth) →
            (m.cycle.machine.run done).cycle.machine.depth = m.depth →
              (m.cycle.machine.run done).cycle.reply = .ok (some .ret)
              ∧ (m.cycle.machine.run done).cycle.machine.snapshot.stack = m.snapshot.stack
              ∧ (m.cycle.machine.run done).cycle.machine.pc = m.pc + 2 := by
  refine ⟨depth_le hm, overflow_iff hm, underflow_iff m, ?_, ?_⟩
  · intro hne
    rcases m.cycle_stack with hs | ⟨t, hreply, -, -⟩ | ⟨hreply, -⟩
    · exact absurd (congrArg List.reverse hs) hne
    · exact Or.inl ⟨t, hreply⟩
    · exact Or.inr hreply
  · intro t script hreply hr
    obtain ⟨-, -, events, hexec⟩ := exec_of_cycle_reply hreply
    have hcall := (call_pushes hexec).2
    have hframe : (m.pc + 2) :: m.stack <:+ m.cycle.machine.stack := by
      rw [hcall]
    refine ⟨?_, ?_⟩
    · intro done hdone hdeep
      have hkept : (m.pc + 2) :: m.stack <:+ (m.cycle.machine.run done).stack := by
        refine frame_kept (fun c hc => hr c (hdone.subset hc)) (fun pre hpre => ?_) hframe
        have hlt := hdeep pre hpre
        rw [depth_eq, depth_eq] at hlt
        exact hlt
      have hprefix := List.reverse_prefix.mpr hkept
      rw [List.reverse_cons] at hprefix
      exact hprefix
    · intro done now hdone hfirst hback
      have hrdone : ∀ c ∈ done, c.2.restarts = false :=
        fun c hc => hr c (hdone.subset (List.mem_append_left _ hc))
      have hstart : m.stack.length < m.cycle.machine.stack.length := by
        rw [hcall, List.length_cons]
        exact Nat.lt_succ_self _
      have hkept : (m.pc + 2) :: m.stack <:+ (m.cycle.machine.run done).stack := by
        refine frame_kept hrdone (fun pre hpre => ?_) hframe
        refine deeper_kept (fun c hc => hrdone c (hpre.subset hc)) hstart ?_
        intro pre' earlier hpre'
        have hne := hfirst pre' earlier (hpre'.trans hpre)
        rw [depth_eq, depth_eq] at hne
        exact hne
      rw [depth_eq, depth_eq] at hback
      obtain ⟨hret, hstack, hpc⟩ := frame_left hkept hback
      exact ⟨hret, congrArg List.reverse hstack, hpc⟩

/-- A program that calls a subroutine that returns at once. -/
def returnAtOnce : Array UInt8 := #[0x22, 0x04, 0x12, 0x02, 0x00, 0xEE]

def beforeCall : Machine := booted returnAtOnce

/-- The machine when the call was made and the timers have ticked. -/
def beforeReturn : Machine := beforeCall.cycle.machine.run [(0, .tick)]

private theorem beforeCall_cycle :
    beforeCall.cycle = ⟨.ok (some (.call ⟨0x204, by decide⟩)),
      { beforeCall with pc := 0x204, stack := [0x202] }, [.called 0x204 1]⟩ := by
  have hdec : Instr.decode? beforeCall.fetch = some (.call ⟨0x204, by decide⟩) :=
    Memory.decode_ofProgram (k := 0) rfl rfl (by decide) rfl
  exact cycle_of_exec rfl hdec (exec_call (by decide))

private theorem beforeReturn_cycle :
    beforeReturn.cycle = ⟨.ok (some .ret),
      { beforeReturn with pc := 0x202, stack := [] }, [.returned 0x202 0]⟩ := by
  have hframe : HostFrame { beforeCall with pc := 0x204, stack := [0x202] } beforeReturn := by
    unfold beforeReturn
    rw [run_cons, run_nil, beforeCall_cycle]
    exact perform_hostFrame (a := .tick) rfl nofun _ 0
  have hpc : beforeReturn.pc.toNat = Memory.programStart + 4 := by
    rw [hframe.pc]
    rfl
  have hdec : Instr.decode? beforeReturn.fetch = some .ret :=
    Memory.decode_ofProgram hframe.memory hpc (by decide) rfl
  exact cycle_of_exec hframe.stopped hdec (exec_ret hframe.stack)

/-- The call at 0x200 is matched by the return at 0x204, and the machine
goes on at 0x202. -/
theorem return_goes_behind_call :
    beforeCall.Reachable ∧ beforeCall.cycle.reply = .ok (some (.call ⟨0x204, by decide⟩))
      ∧ beforeReturn.cycle.machine.depth = beforeCall.depth
      ∧ beforeReturn.cycle.reply = .ok (some .ret)
      ∧ beforeReturn.cycle.machine.snapshot.stack = beforeCall.snapshot.stack
      ∧ beforeReturn.cycle.machine.pc = beforeCall.pc + 2 := by
  have hm : beforeCall.Reachable := reachable_booted (by decide)
  have hreply : beforeCall.cycle.reply = .ok (some (.call ⟨0x204, by decide⟩)) := by
    rw [beforeCall_cycle]
  have hdepth : beforeReturn.cycle.machine.depth = beforeCall.depth := by
    rw [beforeReturn_cycle, depth_eq, depth_eq]
    rfl
  obtain ⟨-, -, -, -, hrun⟩ := calls_match_returns hm
  obtain ⟨-, hfirst⟩ :=
    hrun _ [(0, .tick), (0, .cycle)] hreply (by simp [Action.restarts])
  unfold beforeReturn at hdepth ⊢
  refine ⟨hm, hreply, hdepth, hfirst [(0, .tick)] 0 (List.prefix_refl _) ?_ hdepth⟩
  -- no cycle comes before the return
  intro pre earlier hpre
  have hmem := hpre.subset (List.mem_append_right pre (List.mem_singleton_self _))
  simp at hmem

end Chip8.Machine
