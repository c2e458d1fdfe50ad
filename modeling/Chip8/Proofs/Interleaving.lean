/-
The order of host calls and cycles is free, except where an instruction
looks at what the host changes.

# What a host changes from outside

A tick changes the timers, and a call for the keys changes which keys are
down. Either is a change from outside (`Machine.outside`): a function of
the timers and a function of the keys, which look at nothing else. An
instruction that uses neither is run in the same way before and after
such a change, and the change is the same before and after the
instruction (`Machine.exec_outside`); faults and stopped machines are no
exception. On a board the same holds of everything in storage.

# Swapping calls

Two calls that come one after the other are independent on a board if
they are a tick or a call for the keys on the one hand and a cycle on the
other that runs no instruction which minds, or a tick and a call for the
keys, or calls for different keys. They can be made in either order
(`commute_of_independent`). A script may be rearranged by swapping
independent neighbours, again and again; whether two neighbours are
independent is asked of the board at that point of the script. No
rearrangement changes where a script leads or what any of its calls
answers.
-/
import Chip8.Proofs.Effects

namespace Chip8

/-- Whether an instruction reads or sets a timer. -/
def Instr.usesTimers : Instr → Bool
  | .getDelay _ | .setDelay _ | .setSound _ => true
  | _ => false

/-- Whether an instruction looks at the keys. -/
def Instr.usesKeys : Instr → Bool
  | .skipIfKey _ | .skipUnlessKey _ | .awaitKey _ => true
  | _ => false

-- ================================================== changes from outside

section

variable (f : Timers → Timers) (g : Keys → Keys)

namespace Machine

/-- A change of the timers and of the keys that are down. -/
def outside (m : Machine) : Machine :=
  { m with timers := f m.timers, keypad := { m.keypad with down := g m.keypad.down } }

variable {f g}

/-- Arithmetic between registers looks at neither timers nor keys. -/
private theorem combine_outside (m : Machine) (op : RegOp) (x y : Reg) :
    (m.outside f g).combine op x y = (m.combine op x y).outside f g := by
  cases op with
  | _ => rfl

private theorem addIndex_outside (m : Machine) (x : Reg) :
    (m.outside f g).addIndex x = (m.addIndex x).outside f g := by
  obtain ⟨⟨_, _, flags, _, _, _⟩, _, _, _, _, _, _, _, _, _, _, _⟩ := m
  cases flags with
  | true => rfl
  | false => rfl

private theorem advanceIndex_outside (m : Machine) (x : Reg) :
    (m.outside f g).advanceIndex x = (m.advanceIndex x).outside f g := by
  obtain ⟨⟨_, advances, _, _, _, _⟩, _, _, _, _, _, _, _, _, _, _, _⟩ := m
  cases advances with
  | true => rfl
  | false => rfl

private theorem loadRegisters_outside (m : Machine) (x : Reg) :
    (m.outside f g).loadRegisters x = (m.loadRegisters x).outside f g := by
  simp only [loadRegisters, outside]
  rfl

/-- A wait for a key minds the keys, but not the timers. -/
private theorem awaitKey_outside (m : Machine) (x : Reg) :
    (m.outside f id).awaitKey x = ((m.awaitKey x).1.outside f id, (m.awaitKey x).2) := by
  cases hwait : m.keypad.wait with
  | none =>
      rw [awaitKey_begins hwait, awaitKey_begins (m := m.outside f id) hwait]
      rfl
  | some w =>
      cases hfresh : Keys.fresh? w.seen m.keypad.down with
      | none =>
          rw [awaitKey_goes_on hwait hfresh, awaitKey_goes_on (m := m.outside f id) hwait hfresh]
          rfl
      | some key =>
          rw [awaitKey_ends hwait hfresh, awaitKey_ends (m := m.outside f id) hwait hfresh]
          rfl

/-- An instruction that uses nothing that is changed from outside does the
same before the change and after it. -/
theorem exec_outside {i : Instr} (hf : i.usesTimers = true → f = id)
    (hg : i.usesKeys = true → g = id) (m : Machine) :
    (m.outside f g).exec i = (m.exec i).mapState (outside f g) := by
  cases i with
  | getDelay x | setDelay x | setSound x =>
      obtain rfl := hf rfl
      rfl
  | skipIfKey x | skipUnlessKey x =>
      obtain rfl := hg rfl
      rfl
  | awaitKey x =>
      obtain rfl := hg rfl
      exact congrArg Except.ok (awaitKey_outside m x)
  | call t =>
      by_cases hroom : m.stack.length < stackDepth
      · rw [exec_call hroom, exec_call (m := m.outside f g) hroom]
        rfl
      · have hfull : stackDepth ≤ m.stack.length := Nat.le_of_not_lt hroom
        rw [exec_call_of_full hfull, exec_call_of_full (m := m.outside f g) hfull]
        rfl
  | ret =>
      cases hstack : m.stack with
      | nil =>
          rw [exec_ret_of_empty hstack, exec_ret_of_empty (m := m.outside f g) hstack]
          rfl
      | cons target rest =>
          rw [exec_ret hstack, exec_ret (m := m.outside f g) hstack]
          rfl
  | combine op x y => exact congrArg (fun m' => Except.ok (m', [])) (combine_outside m op x y)
  | addIndex x => exact congrArg (fun m' => Except.ok (m', [])) (addIndex_outside m x)
  | store x =>
      exact congrArg (fun m' : Machine => Except.ok (m'.next, (m.storeBytes (m.upTo x)).2))
        (advanceIndex_outside (m.storeBytes (m.upTo x)).1 x)
  | load x =>
      simp only [exec, loadRegisters_outside, advanceIndex_outside]
      rfl
  | _ => rfl

end Machine

namespace Board

/-- A change of the timers and of the keys that are down. -/
def outside (b : Board) : Board :=
  { b with timers := f b.timers, keys := { b.keys with down := g b.keys.down } }

variable {f g}

/-- An instruction that uses no timers and no keys, nor slots nor latch,
comes to the same if these were changed before it or after. -/
private theorem execShared_outside {i : Instr} (hf : i.usesTimers = true → f = id)
    (hg : i.usesKeys = true → g = id) (b : Board) :
    (b.outside f g).execShared i = (b.execShared i).mapState (outside f g) := by
  have hmachine := Machine.exec_outside hf hg b.machine
  unfold execShared
  rw [show (b.outside f g).machine = b.machine.outside f g from rfl, hmachine]
  cases b.machine.exec i with
  | error reached => rfl
  | ok out => rfl

/-- Waiting for a key comes to the same if the timers were changed before
it or after. -/
private theorem awaitKey_outside (b : Board) (x : Reg) :
    (b.outside f id).awaitKey x = ((b.awaitKey x).1.outside f id, (b.awaitKey x).2) := by
  have hkeys : (b.outside f id).keys = b.keys := rfl
  unfold awaitKey
  rw [hkeys]
  split
  · rcases b.keys.poll with ⟨_ | ⟨y, key⟩, keys⟩
    · rfl
    · rfl
  · rfl

/-- An instruction that uses no timers comes to the same if they were
changed before it or after, and one that uses no keys if these were. -/
theorem exec_outside {i : Instr} (hf : i.usesTimers = true → f = id)
    (hg : i.usesKeys = true → g = id) (b : Board) :
    (b.outside f g).exec i = (b.exec i).mapState (outside f g) := by
  cases i with
  | call t =>
      by_cases hroom : b.calls.used < stackDepth
      · rw [exec_call, exec_call, dif_pos hroom]
        exact dif_pos hroom
      · rw [exec_call, exec_call, dif_neg hroom]
        exact dif_neg hroom
  | ret =>
      by_cases hopen : 0 < b.calls.used
      · rw [exec_ret, exec_ret, dif_pos hopen]
        exact dif_pos hopen
      · rw [exec_ret, exec_ret, dif_neg hopen]
        exact dif_neg hopen
  | awaitKey x =>
      obtain rfl := hg rfl
      exact congrArg Except.ok (awaitKey_outside b x)
  | _ => exact execShared_outside hf hg b

/-- A cycle on this board runs no instruction of some kind. -/
def Avoids (b : Board) (kind : Instr → Bool) : Prop :=
  b.stopped = false → ∀ i, Instr.decode? b.fetch = some i → kind i = false

/-- A change from outside that a cycle does not mind may be made before it
or after it. -/
theorem cycle_outside {b : Board} (hf : f = id ∨ b.Avoids Instr.usesTimers)
    (hg : g = id ∨ b.Avoids Instr.usesKeys) :
    (b.outside f g).cycle
      = ⟨b.cycle.reply, b.cycle.board.outside f g, b.cycle.events⟩ := by
  cases hrun : b.stopped with
  | true =>
      have hidle : ∀ b : Board, b.stopped = true → b.cycle = ⟨.ok none, b, []⟩ := by
        intro b h
        unfold cycle
        rw [if_pos h]
      rw [hidle b hrun, hidle (b.outside f g) hrun]
  | false =>
      cases hdec : Instr.decode? b.fetch with
      | none =>
          rw [cycle_of_unknown hrun hdec, cycle_of_unknown (b := b.outside f g) hrun hdec]
          rfl
      | some i =>
          have hexec := exec_outside (f := f) (g := g) (i := i)
            (fun hi => hf.resolve_right fun h => by simp [h hrun i hdec] at hi)
            (fun hi => hg.resolve_right fun h => by simp [h hrun i hdec] at hi) b
          cases hout : b.exec i with
          | error reached =>
              rw [hout] at hexec
              rw [cycle_of_fault hrun hdec hout,
                cycle_of_fault (b := b.outside f g) hrun hdec hexec]
              rfl
          | ok out =>
              rw [hout] at hexec
              rw [cycle_of_exec hrun hdec hout, cycle_of_exec (b := b.outside f g) hrun hdec hexec]

end Board

end

/-- Whether a call presses and releases keys. -/
def Action.updatesKeys : Action → Bool
  | .setKey .. | .setKeys _ => true
  | _ => false

namespace Board

variable {b : Board}

/-- A tick changes the timers, and nothing else. -/
theorem perform_tick (b : Board) (now : Instant) :
    b.perform now .tick = ⟨.done, b.outside (fun t => t.tick b.config.timerStep) id, []⟩ := rfl

/-- Setting a key that exists changes the keys that are down, and nothing
else. -/
theorem perform_setKey {code : UInt8} (h : code.toNat < 16) (b : Board) (now : Instant)
    (isDown : Bool) :
    b.perform now (.setKey code isDown)
      = ⟨.done, b.outside id fun down => down.set code.toNat isDown h, []⟩ := by
  have hset : b.setKey code isDown = _ := dif_pos h
  simp only [perform]
  rw [hset]
  rfl

/-- Setting a key that does not exist changes nothing, and says so. -/
theorem perform_setKey_of_le {code : UInt8} (h : 16 ≤ code.toNat) (b : Board) (now : Instant)
    (isDown : Bool) :
    b.perform now (.setKey code isDown)
      = ⟨.failed (.invalidKey code), b, [.unknownKey code]⟩ := by
  have hset : b.setKey code isDown = _ := dif_neg (Nat.not_lt.mpr h)
  simp only [perform]
  rw [hset]
  rfl

/-- What a call for the keys does to them, and what it answers, depends on
nothing but the call. -/
theorem perform_updatesKeys {a : Action} (h : a.updatesKeys = true) :
    ∃ g reply events, ∀ (b : Board) (now : Instant),
      b.perform now a = ⟨reply, b.outside id g, events⟩ := by
  cases a with
  | setKey code isDown =>
      by_cases hcode : code.toNat < 16
      · exact ⟨_, _, _, fun b now => perform_setKey hcode b now isDown⟩
      · exact ⟨id, _, _, fun b now => perform_setKey_of_le (Nat.le_of_not_lt hcode) b now isDown⟩
  | setKeys keys => exact ⟨fun _ => Keys.ofList keys, .done, [], fun _ _ => rfl⟩
  | _ => cases h

-- ======================================================== swapping calls

/-- What a call answers and reports. -/
def Step.answer (s : Step Reply) : Reply × List Event := (s.reply, s.events)

/-- Two calls lead to the same board and give the same answers in either
order. -/
structure Swappable (b : Board) (c c' : Instant × Action) : Prop where
  board : ((b.perform c.1 c.2).board.perform c'.1 c'.2).board
    = ((b.perform c'.1 c'.2).board.perform c.1 c.2).board
  answer : (b.perform c.1 c.2).answer = ((b.perform c'.1 c'.2).board.perform c.1 c.2).answer
  answer' : ((b.perform c.1 c.2).board.perform c'.1 c'.2).answer = (b.perform c'.1 c'.2).answer

theorem Swappable.symm {c c' : Instant × Action} (h : b.Swappable c c') : b.Swappable c' c :=
  ⟨h.board.symm, h.answer'.symm, h.answer.symm⟩

/-- A tick can be swapped with a cycle that runs no instruction on timers. -/
theorem swappable_tick_cycle (h : b.Avoids Instr.usesTimers) (now now' : Instant) :
    b.Swappable (now, .tick) (now', .cycle) := by
  have hcycle := cycle_outside (f := fun t => t.tick b.config.timerStep) (g := id)
    (Or.inr h) (Or.inl rfl)
  have hconfig : b.cycle.board.config = b.config := b.perform_config now' .cycle
  have hafter : (b.perform now .tick).board.perform now' .cycle
      = ⟨.ofCycle b.cycle.reply, b.cycle.board.outside (fun t => t.tick b.config.timerStep) id,
          b.cycle.events⟩ := by
    rw [perform_tick, perform_cycle, hcycle]
  have hbefore : (b.perform now' .cycle).board.perform now .tick
      = ⟨.done, b.cycle.board.outside (fun t => t.tick b.config.timerStep) id, []⟩ := by
    rw [perform_cycle, perform_tick, hconfig]
  constructor
  · rw [hafter, hbefore]
  · rw [hbefore]
    rfl
  · rw [hafter]
    rfl

/-- Setting keys can be swapped with a cycle that runs no instruction on
keys. -/
theorem swappable_keys_cycle {a : Action} (ha : a.updatesKeys = true)
    (h : b.Avoids Instr.usesKeys) (now now' : Instant) :
    b.Swappable (now, a) (now', .cycle) := by
  obtain ⟨g, reply, events, hkeys⟩ := perform_updatesKeys ha
  have hcycle := cycle_outside (f := id) (g := g) (Or.inl rfl) (Or.inr h)
  have hafter : (b.perform now a).board.perform now' .cycle
      = ⟨.ofCycle b.cycle.reply, b.cycle.board.outside id g, b.cycle.events⟩ := by
    rw [hkeys, perform_cycle, hcycle]
  have hbefore : (b.perform now' .cycle).board.perform now a
      = ⟨reply, b.cycle.board.outside id g, events⟩ := hkeys _ now
  constructor
  · rw [hafter, hbefore]
  · rw [hbefore, hkeys]
    rfl
  · rw [hafter]
    rfl

/-- A tick can always be swapped with setting keys. -/
theorem swappable_tick_keys {a : Action} (ha : a.updatesKeys = true) (now now' : Instant) :
    b.Swappable (now, .tick) (now', a) := by
  obtain ⟨g, reply, events, hkeys⟩ := perform_updatesKeys ha
  constructor
  · rw [hkeys, hkeys]
    rfl
  · rw [hkeys]
    rfl
  · rw [hkeys, hkeys]
    rfl

/-- Setting one key can be swapped with setting another. -/
theorem swappable_keys {code code' : UInt8} (h : code ≠ code') (isDown isDown' : Bool)
    (now now' : Instant) :
    b.Swappable (now, .setKey code isDown) (now', .setKey code' isDown') := by
  by_cases hcode : code.toNat < 16
  · by_cases hcode' : code'.toNat < 16
    · have hne : code.toNat ≠ code'.toNat := fun heq => h (UInt8.toNat_inj.mp heq)
      constructor
      · simp only [perform_setKey hcode, perform_setKey hcode', outside, Vector.set_comm _ _ hne]
      · simp only [perform_setKey hcode, Step.answer]
      · simp only [perform_setKey hcode', Step.answer]
    · have hrefused := perform_setKey_of_le (Nat.le_of_not_lt hcode')
      constructor
      · simp only [hrefused]
      · simp only [hrefused]
      · simp only [hrefused, Step.answer]
  · have hrefused := perform_setKey_of_le (Nat.le_of_not_lt hcode)
    constructor
    · simp only [hrefused]
    · simp only [hrefused, Step.answer]
    · simp only [hrefused]

/-- Two calls are independent on a board if neither looks at what the
other changes. -/
inductive Independent (b : Board) : Action → Action → Prop where
  | tick_cycle : b.Avoids Instr.usesTimers → Independent b .tick .cycle
  | keys_cycle {a : Action} : a.updatesKeys = true → b.Avoids Instr.usesKeys →
      Independent b a .cycle
  | tick_keys {a : Action} : a.updatesKeys = true → Independent b .tick a
  | keys {code code' : UInt8} (isDown isDown' : Bool) : code ≠ code' →
      Independent b (.setKey code isDown) (.setKey code' isDown')
  | symm {a a' : Action} : Independent b a a' → Independent b a' a

/-- Calls that have nothing to do with each other can be swapped. -/
theorem Independent.swappable {a a' : Action} (h : b.Independent a a') :
    ∀ now now', b.Swappable (now, a) (now', a') := by
  induction h with
  | tick_cycle h => exact swappable_tick_cycle h
  | keys_cycle ha h => exact swappable_keys_cycle ha h
  | tick_keys ha => exact swappable_tick_keys ha
  | keys isDown isDown' h => exact swappable_keys h isDown isDown'
  | symm _ ih => exact fun now now' => (ih now' now).symm

-- ==================================================== rearranging scripts

/-- Calls with labels, which tell them apart when their order changes. -/
abbrev Labelled (ι : Type) := List (ι × Instant × Action)

variable {ι : Type}

/-- What each call of a script answers and reports. -/
def answers (b : Board) : Labelled ι → List (ι × Reply × List Event)
  | [] => []
  | (label, now, a) :: rest =>
    let s := b.perform now a
    (label, s.answer) :: s.board.answers rest

/-- A script is rearranged by swapping neighbours that are independent
where they stand, any number of times. -/
inductive Rearranged : Board → Labelled ι → Labelled ι → Prop where
  | refl (b : Board) (calls : Labelled ι) : Rearranged b calls calls
  | swap {b : Board} (call call' : ι × Instant × Action) (rest : Labelled ι) :
      b.Independent call.2.2 call'.2.2 →
      Rearranged b (call :: call' :: rest) (call' :: call :: rest)
  | cons {b : Board} (call : ι × Instant × Action) {calls calls' : Labelled ι} :
      Rearranged (b.perform call.2.1 call.2.2).board calls calls' →
      Rearranged b (call :: calls) (call :: calls')
  | trans {b : Board} {calls calls' calls'' : Labelled ι} :
      Rearranged b calls calls' → Rearranged b calls' calls'' → Rearranged b calls calls''

/-- A rearranged script leads to the same board, and each of its calls
answers what it did. -/
theorem Rearranged.same {calls calls' : Labelled ι} (h : Rearranged b calls calls') :
    b.run (calls.map Prod.snd) = b.run (calls'.map Prod.snd)
      ∧ (b.answers calls).Perm (b.answers calls') := by
  induction h with
  | refl b calls => exact ⟨rfl, .refl _⟩
  | @swap b call call' rest hind =>
      have hswap := hind.swappable call.2.1 call'.2.1
      constructor
      · show ((b.perform call.2.1 call.2.2).board.perform call'.2.1 call'.2.2).board.run _
          = ((b.perform call'.2.1 call'.2.2).board.perform call.2.1 call.2.2).board.run _
        rw [hswap.board]
      · simp only [answers]
        rw [hswap.board, hswap.answer, hswap.answer']
        exact .swap _ _ _
  | cons call _ ih => exact ⟨ih.1, ih.2.cons _⟩
  | trans _ _ ih ih' => exact ⟨ih.1.trans ih'.1, ih.2.trans ih'.2⟩

/-- The order of host calls and cycles is free, unless the cycle looks at
what the host changes.

On every board, running or stopped, a tick and a cycle can be made in
either order unless the cycle runs FX07, FX15 or FX18; so can a call for
the keys and a cycle unless it runs EX9E, EXA1 or FX0A; so can a tick and
a call for the keys; and so can calls that press or release different
keys. Either order leads to the same board, stale slots and latch
included, and both calls give the same answers and events in it. Hence a
script that is rearranged by such swaps leads to the same board, and every
call of it, known by its label, answers the same. -/
theorem order_is_free (b : Board) :
    (∀ now now', b.Avoids Instr.usesTimers → b.Swappable (now, .tick) (now', .cycle))
      ∧ (∀ a now now', a.updatesKeys = true → b.Avoids Instr.usesKeys →
        b.Swappable (now, a) (now', .cycle))
      ∧ (∀ a now now', a.updatesKeys = true → b.Swappable (now, .tick) (now', a))
      ∧ (∀ code code' isDown isDown' now now', code ≠ code' →
        b.Swappable (now, .setKey code isDown) (now', .setKey code' isDown'))
      ∧ ∀ (ι : Type) (calls calls' : Labelled ι), b.Rearranged calls calls' →
        b.run (calls.map Prod.snd) = b.run (calls'.map Prod.snd)
          ∧ (b.answers calls).Perm (b.answers calls') :=
  ⟨fun now now' h => swappable_tick_cycle h now now',
    fun _ now now' ha h => swappable_keys_cycle ha h now now',
    fun _ now now' ha => swappable_tick_keys ha now now',
    fun _ _ isDown isDown' now now' h => swappable_keys h isDown isDown' now now',
    fun _ _ _ h => h.same⟩

/-- A program that sets V3 and then asks for the key in it. -/
def setThenAsk : Array UInt8 := #[0x63, 0x07, 0xE3, 0x9E]

/-- A board that was just let run it, with a timer set. -/
def beforeAsk : Board := ((cleared (Machine.booted setThenAsk)).perform 0 (.setDelay 200)).board

/-- The key is pressed and the timers tick before the first cycle. -/
def hostFirst : Labelled Nat :=
  [(0, 1, .tick), (1, 2, .setKey 7 true), (2, 3, .cycle), (3, 4, .cycle)]

/-- The first cycle is over when the key is pressed and the timers tick. -/
def cycleFirst : Labelled Nat :=
  [(2, 3, .cycle), (1, 2, .setKey 7 true), (0, 1, .tick), (3, 4, .cycle)]

/-- The first cycle does not look at keys and timers, so nobody can tell
which of them came first, not even the second cycle, which asks for the
key. -/
theorem host_or_cycle_first :
    beforeAsk.Rearranged hostFirst cycleFirst
      ∧ beforeAsk.run (hostFirst.map Prod.snd) = beforeAsk.run (cycleFirst.map Prod.snd)
      ∧ (beforeAsk.answers hostFirst).Perm (beforeAsk.answers cycleFirst) := by
  have hmem : beforeAsk.machine.memory = Memory.ofProgram setThenAsk := rfl
  have hdec : Instr.decode? beforeAsk.fetch = some (.setByte 3 7) :=
    Memory.decode_ofProgram (k := 0) hmem rfl (by decide) rfl
  have hplain {b : Board} (hfetch : b.fetch = beforeAsk.fetch) {kind : Instr → Bool}
      (hkind : kind (.setByte 3 7) = false) : b.Avoids kind := by
    intro _ i hi
    rw [hfetch, hdec] at hi
    cases hi
    exact hkind
  have hrearranged : beforeAsk.Rearranged hostFirst cycleFirst := by
    refine .trans (.cons _ (.swap _ _ _ ?_)) (.trans (.swap _ _ _ ?_) (.cons _ (.swap _ _ _ ?_)))
    · exact .keys_cycle rfl (hplain rfl rfl)
    · exact .tick_cycle (hplain rfl rfl)
    · exact .tick_keys rfl
  obtain ⟨-, -, -, -, hsame⟩ := order_is_free beforeAsk
  exact ⟨hrearranged, hsame Nat hostFirst cycleFirst hrearranged⟩

end Board

end Chip8
