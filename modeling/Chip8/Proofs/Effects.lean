/-
What a cycle can change, and when a host has to draw.

# The registers

`Footprint` says which components an instruction leaves alone, and leaves
out the registers. `Instr.writes` lists them: the registers that an
instruction can change, VF among them where it is a flag. FX0A writes the
register that the keypad remembers, which is the one that it names itself
only because a wait belongs to the instruction at the program counter
(`WaitsHere`); so what holds of the registers (`exec_get`) holds of
machines that a host can come by.

# The board

On a board the footprint covers what a machine does not keep: all slots
for return addresses, and the keys as last looked at.

# Drawing

The display is touched by two instructions and by a restart. So it is
enough to draw it after these, and a host that does no more always shows
what is on the display (`shown_eq_display`).
-/
import Chip8.Proofs.Board
import Chip8.Proofs.KeyWait

namespace Chip8

/-- Whether an operation on two registers gives a flag. -/
def RegOp.givesFlag : RegOp → Bool
  | .add | .sub | .shiftRight | .subFrom | .shiftLeft => true
  | .move | .or | .and | .xor => false

/-- Whether an instruction can change a register. -/
def Instr.writes (config : Config) (r : Reg) : Instr → Bool
  | .setByte x _ | .addByte x _ | .random x _ | .getDelay x | .awaitKey x => r == x
  | .combine op x _ => r == x || (op.givesFlag && r == Reg.flag)
  | .draw .. => r == Reg.flag
  | .addIndex _ => config.flagsIndexOverflow && r == Reg.flag
  | .load x => decide (r ≤ x)
  | _ => false

/-- The display instructions are the one that clears the display and the
one that draws on it. -/
theorem Instr.isDisplay_iff (i : Instr) :
    i.isDisplay = true ↔ i = .clear ∨ ∃ x y rows, i = .draw x y rows := by
  cases i with
  | clear => exact ⟨fun _ => Or.inl rfl, fun _ => rfl⟩
  | draw x y rows => exact ⟨fun _ => Or.inr ⟨x, y, rows, rfl⟩, fun _ => rfl⟩
  | _ => simp [isDisplay]

/-- Whether a host that saves itself work draws the display anew after a
call: after a load that was done, a reset, and a cycle that ran an
instruction which touches the display. -/
def Action.redraws : Action → Reply → Bool
  | .load _, .done | .loadFile .., .done | .reset, _ => true
  | .cycle, .ran i => i.isDisplay
  | _, _ => false

namespace Machine

variable {m m' : Machine} {x r : Reg}

-- ======================================================== the registers

/-- A register has the value that was put there. -/
theorem get_set_self (m : Machine) (x : Reg) (value : UInt8) : (m.set x value).get x = value :=
  Vector.getElem_set_self x.isLt

theorem get_set_of_ne (h : r ≠ x) (m : Machine) (value : UInt8) :
    (m.set x value).get r = m.get r := by
  have hval : x.val ≠ r.val := fun hx => h (Fin.ext hx.symm)
  exact Vector.getElem_set_ne x.isLt r.isLt hval

/-- An operation that gives no flag writes VX alone. -/
theorem combine_get {op : RegOp} {y : Reg} (hx : r ≠ x)
    (hflag : op.givesFlag = true → r ≠ Reg.flag) : (m.combine op x y).get r = m.get r := by
  cases op with
  | move | or | and | xor => exact get_set_of_ne hx _ _
  | _ => exact (get_set_of_ne (hflag rfl) _ _).trans (get_set_of_ne hx _ _)

/-- FX1E changes no register but VF, and that only where it sets the flag. -/
theorem addIndex_get (h : m.config.flagsIndexOverflow = true → r ≠ Reg.flag) :
    (m.addIndex x).get r = m.get r := by
  unfold addIndex
  dsimp only
  split
  next hon => exact get_set_of_ne (h hon) _ _
  next => rfl

theorem advanceIndex_get (m : Machine) (x r : Reg) : (m.advanceIndex x).get r = m.get r := by
  unfold advanceIndex
  split
  · rfl
  · rfl

/-- Loading registers up to VX changes none above it. -/
theorem loadRegisters_get (h : ¬ r ≤ x) : (m.loadRegisters x).get r = m.get r := by
  refine (Vector.getElem_ofFn r.isLt).trans ?_
  exact if_neg h

/-- A wait that is on for VX writes no register but VX. -/
theorem awaitKey_get (hwait : ∀ w, m.keypad.wait = some w → w.asker = x) (h : r ≠ x) :
    (m.awaitKey x).1.get r = m.get r := by
  cases hw : m.keypad.wait with
  | none =>
      rw [awaitKey_begins hw]
      rfl
  | some w =>
      cases hf : Keys.fresh? w.seen m.keypad.down with
      | none =>
          rw [awaitKey_goes_on hw hf]
          rfl
      | some key =>
          rw [awaitKey_ends hw hf, hwait w hw]
          exact get_set_of_ne h _ _

/-- What an instruction does not write keeps its value. -/
theorem exec_get {i : Instr} {events : List Event} (hm : m.WaitsHere)
    (hdec : Instr.decode? m.fetch = some i) (hexec : m.exec i = .ok (m', events))
    (h : i.writes m.config r = false) : m'.get r = m.get r := by
  cases i with
  | setByte x byte | addByte x byte | random x mask | getDelay x =>
      cases hexec
      exact get_set_of_ne (by simpa [Instr.writes] using h) _ _
  | combine op x y =>
      cases hexec
      simp only [Instr.writes, Bool.or_eq_false_iff, beq_eq_false_iff_ne,
        Bool.and_eq_false_iff] at h
      refine combine_get h.1 fun hflag => ?_
      rw [hflag] at h
      simpa using h.2
  | draw x y rows =>
      cases hexec
      exact get_set_of_ne (by simpa [Instr.writes] using h) _ _
  | addIndex x =>
      cases hexec
      refine addIndex_get fun hon => ?_
      simpa [Instr.writes, hon] using h
  | load x =>
      cases hexec
      exact (advanceIndex_get _ _ _).trans (loadRegisters_get (by simpa [Instr.writes] using h))
  | store x =>
      cases hexec
      exact advanceIndex_get _ _ _
  | awaitKey x =>
      have hm' : m' = (m.awaitKey x).1 := by
        simp only [exec, Except.ok.injEq] at hexec
        rw [hexec]
      rw [hm']
      refine awaitKey_get (fun w hw => ?_) (by simpa [Instr.writes] using h)
      have hw' := hm w hw
      rw [hdec] at hw'
      cases hw'
      rfl
  | call t =>
      simp only [exec] at hexec
      split at hexec
      case isTrue =>
        cases hexec
        rfl
      case isFalse => cases hexec
  | ret =>
      simp only [exec] at hexec
      split at hexec
      next => cases hexec
      next =>
        cases hexec
        rfl
  | _ =>
      cases hexec
      rfl

-- ============================================================ the memory

/-- An instruction that stores nothing leaves memory alone. -/
theorem memory_eq_of_not_stores {i : Instr} (h : Footprint i m m') (hdecimal : ∀ x, i ≠ .decimal x)
    (hstore : ∀ x, i ≠ .store x) : m'.memory = m.memory := by
  have hnone : i.stored m = [] := by
    cases i with
    | decimal x => exact absurd rfl (hdecimal x)
    | store x => exact absurd rfl (hstore x)
    | _ => rfl
  rw [h.memory, hnone]
  rfl

/-- The instructions that can move I. -/
theorem movesIndex_cases {config : Config} {i : Instr} (h : i.movesIndex config = true) :
    (∃ t, i = .setIndex t) ∨ (∃ x, i = .addIndex x) ∨ (∃ x, i = .glyph x)
      ∨ config.advancesIndex = true ∧ ∃ x, i = .store x ∨ i = .load x := by
  cases i with
  | setIndex t => exact Or.inl ⟨t, rfl⟩
  | addIndex x => exact Or.inr (Or.inl ⟨x, rfl⟩)
  | glyph x => exact Or.inr (Or.inr (Or.inl ⟨x, rfl⟩))
  | store x => exact Or.inr (Or.inr (Or.inr ⟨h, x, Or.inl rfl⟩))
  | load x => exact Or.inr (Or.inr (Or.inr ⟨h, x, Or.inr rfl⟩))
  | _ => cases h

-- ========================================================== the display

/-- A load that is refused leaves the screen as it was. -/
theorem display_of_load {now : Instant} {program : Array UInt8}
    (h : Reply.ofExcept (m.load now program).reply ≠ .done) :
    (m.load now program).machine.display = m.display := by
  by_cases hsize : program.size ≤ Memory.capacity
  · rw [load_of_fits m now hsize] at h
    exact absurd rfl h
  · unfold load
    rw [if_pos (Nat.lt_of_not_le hsize)]

/-- A call after which the host does not draw has left the display as it
was. -/
theorem display_of_not_redraws {now : Instant} {a : Action}
    (h : a.redraws (m.perform now a).reply = false) :
    (m.perform now a).machine.display = m.display := by
  cases a with
  | load program =>
      refine display_of_load fun hdone => ?_
      rw [show (m.perform now (.load program)).reply = .done from hdone] at h
      cases h
  | loadFile path contents =>
      cases contents with
      | error problem => rfl
      | ok program =>
          refine display_of_load fun hdone => ?_
          rw [show (m.perform now (.loadFile path (.ok program))).reply = .done from hdone] at h
          cases h
  | reset => cases h
  | stop => rfl
  | cycle =>
      rcases m.cycle_stops_or_runs with hc | ⟨i, events, -, hexec, hreply⟩
      · show m.cycle.machine.display = m.display
        rw [hc]
      · rw [show (m.perform now .cycle).reply = Reply.ofCycle m.cycle.reply from rfl, hreply] at h
        exact (exec_footprint hexec).display h
  | _ =>
      refine (perform_hostFrame ?_ ?_ m now).display
      · rfl
      · nofun

end Machine

namespace Board

variable {b b' : Board}

-- ============================================================ the board

/-- What a cycle answers to have run is at the program counter, and its
outcome is that of the cycle. -/
theorem exec_of_cycle_reply {i : Instr} (h : b.cycle.reply = .ok (some i)) :
    b.stopped = false ∧ Instr.decode? b.fetch = some i
      ∧ ∃ events, b.exec i = .ok (b.cycle.board, events) := by
  rcases b.cycle_cases with ⟨-, hc⟩ | ⟨-, -, hc⟩ | ⟨j, g, -, -, -, hc⟩
    | ⟨j, b', events, hrun, hdec, hexec, hc⟩
  · rw [hc] at h
    cases h
  · rw [hc] at h
    cases h
  · rw [hc] at h
    cases h
  · rw [hc] at h ⊢
    cases h
    exact ⟨hrun, hdec, events, hexec⟩

/-- What an instruction makes of a board it makes of its machine. -/
theorem exec_ok_machine {i : Instr} {events : List Event} (h : b.exec i = .ok (b', events)) :
    b.machine.exec i = .ok (b'.machine, events) := by
  rw [← b.exec_machine i, h]
  rfl

/-- An instruction that needs neither slots nor latch leaves both alone. -/
theorem execShared_calls {i : Instr} {events : List Event}
    (h : b.execShared i = .ok (b', events)) : b'.calls = b.calls ∧ b'.keys = b.keys := by
  unfold execShared at h
  cases hexec : b.machine.exec i with
  | error f =>
      rw [hexec] at h
      cases h
  | ok out =>
      rw [hexec] at h
      cases h
      exact ⟨rfl, rfl⟩

/-- Waiting for a key leaves the slots alone. -/
theorem awaitKey_calls (b : Board) (x : Reg) : (b.awaitKey x).1.calls = b.calls := by
  unfold awaitKey
  split
  · split
    · rfl
    · rfl
  · rfl

/-- The slots change only where a call or a return was run. -/
theorem exec_calls {i : Instr} {events : List Event} (h : b.exec i = .ok (b', events))
    (hcall : ∀ t, i ≠ .call t) (hret : i ≠ .ret) : b'.calls = b.calls := by
  cases i with
  | call t => exact absurd rfl (hcall t)
  | ret => exact absurd rfl hret
  | awaitKey x =>
      have hb' : b' = (b.awaitKey x).1 := by
        have hexec : b.exec (.awaitKey x) = .ok (b.awaitKey x) := rfl
        rw [hexec, Except.ok.injEq] at h
        rw [h]
      rw [hb']
      exact b.awaitKey_calls x
  | _ => exact (execShared_calls h).1

/-- The latch changes only where FX0A was run. -/
theorem exec_keys {i : Instr} {events : List Event} (h : b.exec i = .ok (b', events))
    (hawait : ∀ x, i ≠ .awaitKey x) : b'.keys = b.keys := by
  cases i with
  | call t =>
      rw [exec_call] at h
      split at h
      next =>
        cases h
        rfl
      next => cases h
  | ret =>
      rw [exec_ret] at h
      split at h
      next =>
        cases h
        rfl
      next => cases h
  | awaitKey x => exact absurd rfl (hawait x)
  | _ => exact (execShared_calls h).2

-- =============================================================== drawing

/-- What such a host shows after a script, if it shows `picture` before
it. -/
def shown (b : Board) (picture : Display) : Script → Display
  | [] => picture
  | (now, a) :: rest =>
    let s := b.perform now a
    s.board.shown (if a.redraws s.reply then s.board.display else picture) rest

/-- A call after which a host has nothing to redraw leaves the screen as it
was. -/
theorem display_of_not_redraws {now : Instant} {a : Action}
    (h : a.redraws (b.perform now a).reply = false) :
    (b.perform now a).board.display = b.display := by
  have hout := b.perform_outcome now a
  have hreply : (b.machine.perform now a).reply = (b.perform now a).reply := by
    rw [← hout]
    rfl
  rw [← hreply] at h
  have hdisplay := Machine.display_of_not_redraws h
  rw [← perform_machine] at hdisplay
  exact hdisplay

/-- A host that draws only when it has to always shows what is on the
display. -/
theorem shown_eq_display (script : Script) :
    ∀ b : Board, b.shown b.display script = (b.run script).display := by
  induction script with
  | nil => intro b; rfl
  | cons call rest ih =>
      intro b
      obtain ⟨now, a⟩ := call
      have hpicture : (if a.redraws (b.perform now a).reply then (b.perform now a).board.display
          else b.display) = (b.perform now a).board.display := by
        cases h : a.redraws (b.perform now a).reply with
        | true => rfl
        | false => exact (display_of_not_redraws h).symm
      unfold shown run
      dsimp only
      rw [hpicture]
      exact ih _

-- ========================================================= the contract

/-- A cycle writes what its instruction may write, and nothing else.

Let a cycle answer an instruction, on a board that a host can come by.
The display changes only for the two instructions that are called display
instructions, 00E0 and DXYN; memory for FX33 and FX55; the
slots for return addresses for 2NNN and 00EE; I for ANNN, FX1E, FX29, and
FX55 and FX65 where these are configured to move it; the delay timer for
FX15, and the sound timer for FX18; who waits for a key and the keys as
last looked at for FX0A, and the keys that are down never; the random
bytes for CXNN; and the configuration, the clock and whether the machine
is stopped never. A register changes only if the instruction lists it
among those it writes. So over any script a host that draws only after a
load, a reset, and a cycle that touches the display always shows what is
on the display. -/
theorem cycle_writes_only (hb : b.Reachable) :
    (∀ i, b.cycle.reply = .ok (some i) →
      (i.isDisplay = true ↔ i = .clear ∨ ∃ x y rows, i = .draw x y rows)
        ∧ (b.cycle.board.display ≠ b.display → i.isDisplay = true)
        ∧ (b.cycle.board.memory ≠ b.memory → ∃ x, i = .decimal x ∨ i = .store x)
        ∧ (b.cycle.board.calls ≠ b.calls → (∃ t, i = .call t) ∨ i = .ret)
        ∧ (b.cycle.board.index ≠ b.index →
          (∃ t, i = .setIndex t) ∨ (∃ x, i = .addIndex x) ∨ (∃ x, i = .glyph x)
            ∨ b.config.advancesIndex = true ∧ ∃ x, i = .store x ∨ i = .load x)
        ∧ (b.cycle.board.timers.delay ≠ b.timers.delay → ∃ x, i = .setDelay x)
        ∧ (b.cycle.board.timers.sound ≠ b.timers.sound → ∃ x, i = .setSound x)
        ∧ (b.cycle.board.keys ≠ b.keys → ∃ x, i = .awaitKey x)
        ∧ b.cycle.board.keys.down = b.keys.down
        ∧ (b.cycle.board.random ≠ b.random → ∃ x mask, i = .random x mask)
        ∧ b.cycle.board.config = b.config ∧ b.cycle.board.clock = b.clock
        ∧ b.stopped = false ∧ b.cycle.board.stopped = false
        ∧ ∀ r : Reg, b.cycle.board.registers.get r ≠ b.registers.get r →
            i.writes b.config r = true)
      ∧ ∀ script : Script, b.shown b.display script = (b.run script).display := by
  refine ⟨fun i h => ?_, fun script => shown_eq_display script b⟩
  obtain ⟨hrun, hdec, events, hexec⟩ := exec_of_cycle_reply h
  have hmachine := exec_ok_machine hexec
  have hfoot := Machine.exec_footprint hmachine
  refine ⟨i.isDisplay_iff, fun hne => ?_, fun hne => ?_, fun hne => ?_, fun hne => ?_,
    fun hne => ?_, fun hne => ?_, fun hne => ?_, hfoot.down, fun hne => ?_, hfoot.config,
    hfoot.clock, hrun, hfoot.stopped.trans hrun, fun r hne => ?_⟩
  · by_contra hno
    exact hne (hfoot.display (Bool.eq_false_of_not_eq_true hno))
  · by_contra hno
    exact hne (Machine.memory_eq_of_not_stores hfoot (fun x hx => hno ⟨x, Or.inl hx⟩)
      fun x hx => hno ⟨x, Or.inr hx⟩)
  · by_contra hno
    exact hne (exec_calls hexec (fun t ht => hno (Or.inl ⟨t, ht⟩)) fun hr => hno (Or.inr hr))
  · by_contra hno
    refine hne (hfoot.index (Bool.eq_false_of_not_eq_true fun hmoves => ?_))
    exact hno (Machine.movesIndex_cases hmoves)
  · by_contra hno
    exact hne (hfoot.delay fun x hx => hno ⟨x, hx⟩)
  · by_contra hno
    exact hne (hfoot.sound fun x hx => hno ⟨x, hx⟩)
  · by_contra hno
    exact hne (exec_keys hexec fun x hx => hno ⟨x, hx⟩)
  · by_contra hno
    exact hne (hfoot.random fun x mask hx => hno ⟨x, mask, hx⟩)
  · by_contra hno
    exact hne (Machine.exec_get hb.machine.waitsHere hdec hmachine
      (Bool.eq_false_of_not_eq_true hno))

/-- A program that reads the delay timer into VF. -/
def delayIntoFlag : Array UInt8 := #[0xFF, 0x07]

/-- A board that was just let run it, with the delay timer set. -/
def beforeDelay : Board := ((cleared (Machine.booted delayIntoFlag)).perform 0 (.setDelay 9)).board

/-- VF is written as the VX that it is, and no other register is; nor are
memory and display, and a host that does not draw shows the right picture. -/
theorem delay_writes_flag_only :
    beforeDelay.cycle.reply = .ok (some (.getDelay Reg.flag))
      ∧ beforeDelay.cycle.board.registers.get Reg.flag = 9
      ∧ (∀ r : Reg, r ≠ Reg.flag →
        beforeDelay.cycle.board.registers.get r = beforeDelay.registers.get r)
      ∧ beforeDelay.cycle.board.memory = beforeDelay.memory
      ∧ beforeDelay.shown beforeDelay.display [(0, .cycle), (1, .tick)]
        = (beforeDelay.run [(0, .cycle), (1, .tick)]).display := by
  have hreach : beforeDelay.Reachable := .perform 0 _ (reachable_booted (by decide))
  have hmem : beforeDelay.machine.memory = Memory.ofProgram delayIntoFlag := rfl
  have hdec : Instr.decode? beforeDelay.fetch = some (.getDelay Reg.flag) :=
    Memory.decode_ofProgram (k := 0) hmem rfl (by decide) rfl
  have hcycle := cycle_of_exec (b := beforeDelay) rfl hdec rfl
  have hreply : beforeDelay.cycle.reply = .ok (some (.getDelay Reg.flag)) := by
    rw [hcycle]
  obtain ⟨hwrites, hshown⟩ := cycle_writes_only hreach
  obtain ⟨-, -, hmemory, -, -, -, -, -, -, -, -, -, -, -, hregisters⟩ := hwrites _ hreply
  refine ⟨hreply, ?_, fun r hr => ?_, ?_, hshown _⟩
  · rw [hcycle]
    rfl
  · by_contra hne
    exact hr (by simpa [Instr.writes] using hregisters r hne)
  · by_contra hne
    obtain ⟨x, hx | hx⟩ := hmemory hne
    · cases hx
    · cases hx

end Board

end Chip8
