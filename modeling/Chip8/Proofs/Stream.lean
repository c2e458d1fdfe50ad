/-
Every CXNN takes the next byte of one stream, and the stream begins where
the machine was built.

A source gives its bytes in a fixed order, and where it has come to is a
part of the machine. A load, a reset, a stop and a fault leave that part
alone, and so does every instruction but CXNN; a CXNN moves it on by one
byte, also where its mask keeps nothing of the byte (`Call.random_of_roll`,
`Call.random_of_no_roll`).

So the rolls of a script, that is, the CXNN that were run in its course,
get the bytes of the stream one by one, whichever stream it is that the
source yields (`Board.value_of_rolls`), and what was called between two
rolls is not seen in them. The stream of a source that a key stands for is
the key stream of that key (`Generator.yields_ofKey`). Of two machines that
have the same seed, and that ran the same CXNN in the same order, the one
has rolled what the other has.
-/
import Chip8.Proofs.Course
import Chip8.Proofs.Effects

namespace Chip8

namespace Random.Generator

/-- A source yields a stream of bytes if the stream has, at each place, the
byte that comes next when so many have been drawn. -/
def Yields (g : Generator) (bytes : Nat → UInt8) : Prop := ∀ n, (g.after n).next.1 = bytes n

/-- Drawing a byte and then some more is drawing one more of them. -/
theorem after_next (g : Generator) (n : Nat) : g.next.2.after n = g.after (n + 1) := by
  rw [Nat.add_comm, ← after_after]
  rfl

variable {g : Generator} {bytes : Nat → UInt8}

/-- The byte drawn first is the first byte of the stream. -/
theorem Yields.first (h : g.Yields bytes) : g.next.1 = bytes 0 := h 0

/-- Once a byte is drawn, the source yields the stream without its first. -/
theorem Yields.rest (h : g.Yields bytes) : g.next.2.Yields fun n => bytes (n + 1) := by
  intro n
  rw [after_next]
  exact h (n + 1)

/-- A source from which nothing has been drawn yields the key stream of its
key, a byte to a word. -/
theorem yields_ofKey (key : ChaCha.Key) : (ofKey key).Yields (byteAt key) := by
  intro n
  show byteAt key (0 + n) = byteAt key n
  rw [Nat.zero_add]

example : (List.range 4).map (byteAt (keyOfSeed 7)) = [25, 183, 144, 22] := by decide +kernel

end Random.Generator

/-- A CXNN that was run, and what it left in its register. -/
structure Roll where
  register : Reg
  mask : UInt8
  value : UInt8
  deriving DecidableEq

namespace Roll

/-- The instruction that was run. -/
def instr (r : Roll) : Instr := .random r.register r.mask

/-- Rolls out of the same bytes differ only if the instructions do. -/
theorem eq_of_instrs {bytes : Nat → UInt8} {rolls rolls' : List Roll}
    (h : ∀ k r, rolls[k]? = some r → r.value = bytes k &&& r.mask)
    (h' : ∀ k r, rolls'[k]? = some r → r.value = bytes k &&& r.mask)
    (hinstrs : rolls.map instr = rolls'.map instr) : rolls = rolls' := by
  refine List.ext_getElem? fun k => ?_
  have hk : (rolls.map instr)[k]? = (rolls'.map instr)[k]? := by rw [hinstrs]
  rw [List.getElem?_map, List.getElem?_map] at hk
  cases hr : rolls[k]? with
  | none =>
      rw [hr] at hk
      exact (Option.map_eq_none_iff.mp hk.symm).symm
  | some r =>
      rw [hr] at hk
      obtain ⟨r', hr', hinstr⟩ := Option.map_eq_some_iff.mp hk.symm
      have hvalue := h k r hr
      have hvalue' := h' k r' hr'
      obtain ⟨x, mask, value⟩ := r
      obtain ⟨x', mask', value'⟩ := r'
      cases hinstr
      rw [hr', show value = value' from hvalue.trans hvalue'.symm]

end Roll

namespace Machine

variable {m m' : Machine}

/-- CXNN leaves the next byte of the source, under the mask. -/
theorem exec_roll {x : Reg} {mask : UInt8} {events : List Event}
    (h : m.exec (.random x mask) = .ok (m', events)) :
    m'.get x = m.random.next.1 &&& mask := by
  cases h
  exact get_set_self _ x _

end Machine

-- ============================================================= one call

/-- An answer that says a byte was drawn says that CXNN was run. -/
theorem Reply.eq_ran_of_isDraw {r : Reply} (h : r.isDraw = true) :
    ∃ x mask, r = .ran (.random x mask) := by
  cases r with
  | ran i =>
      cases i with
      | random x mask => exact ⟨x, mask, rfl⟩
      | _ => cases h
  | _ => cases h

/-- What CXNN leaves in its register is the next byte of the source, under
the mask. -/
theorem Machine.perform_roll {m : Machine} {now : Instant} {a : Action} {x : Reg} {mask : UInt8}
    (h : (m.perform now a).reply = .ran (.random x mask)) :
    (m.perform now a).machine.get x = m.random.next.1 &&& mask := by
  by_cases ha : a = .cycle
  · subst ha
    have hreply : m.cycle.reply = .ok (some (.random x mask)) := Reply.ofCycle_injective h
    obtain ⟨-, -, events, hexec⟩ := exec_of_cycle_reply hreply
    exact exec_roll hexec
  · have hdraw := isDraw_eq_false ha m now
    rw [h] at hdraw
    cases hdraw

namespace Call

/-- The roll of a call that answers that it has run a CXNN, as none but a
cycle does. -/
def roll? (c : Call) : Option Roll :=
  match c.step.reply with
  | .ran (.random x mask) => some ⟨x, mask, c.step.board.registers.get x⟩
  | _ => none

variable {c : Call} {r : Roll}

/-- A call draws a byte if and only if it is a roll. -/
theorem isDraw_reply (c : Call) : c.step.reply.isDraw = c.roll?.isSome := by
  unfold roll?
  split
  next x mask hreply =>
    rw [hreply]
    rfl
  next hother =>
    rw [Option.isSome_none, Bool.eq_false_iff]
    intro hdraw
    obtain ⟨x, mask, hreply⟩ := Reply.eq_ran_of_isDraw hdraw
    exact hother x mask hreply

/-- A call moves the source on by one byte if it is a roll, and not at all
if it is none. -/
theorem random_after (c : Call) :
    c.step.board.random = c.before.random.after c.roll?.isSome.toNat := by
  have hrandom := c.before.machine.perform_random c.now c.action
  rw [c.outcome_step, show c.step.outcome.reply = c.step.reply from rfl, isDraw_reply] at hrandom
  exact hrandom

/-- A roll moves the source on by one byte. -/
theorem random_of_roll (h : c.roll? = some r) : c.step.board.random = c.before.random.next.2 := by
  rw [random_after, h]
  rfl

theorem random_of_no_roll (h : c.roll? = none) : c.step.board.random = c.before.random := by
  rw [random_after, h]
  rfl

/-- No call but a cycle is a roll. -/
theorem roll_eq_none (h : c.action ≠ .cycle) : c.roll? = none := by
  have hdraw := Machine.isDraw_eq_false h c.before.machine c.now
  rw [c.outcome_step, show c.step.outcome.reply = c.step.reply from rfl, isDraw_reply] at hdraw
  rw [← Option.not_isSome_iff_eq_none, hdraw]
  exact Bool.false_ne_true

/-- What a roll leaves in its register is the next byte of the source, under
the mask. -/
theorem value_of_roll (h : c.roll? = some r) : r.value = c.before.random.next.1 &&& r.mask := by
  unfold roll? at h
  split at h
  next x mask hreply =>
    cases h
    have hroll : (c.before.machine.perform c.now c.action).reply = .ran (.random x mask) := by
      rw [c.outcome_step]
      exact hreply
    have hvalue := Machine.perform_roll hroll
    rw [c.outcome_step] at hvalue
    exact hvalue
  next => cases h

end Call

-- =========================================================== the course

namespace Board

/-- The rolls in the course of a script, in their order. -/
def rolls (b : Board) (script : Script) : List Roll := (b.course script).filterMap Call.roll?

/-- A first call that is no roll adds nothing to the rolls. -/
theorem rolls_cons_none {b : Board} {now : Instant} {a : Action}
    (h : (⟨b, now, a⟩ : Call).roll? = none) (rest : Script) :
    b.rolls ((now, a) :: rest) = (b.perform now a).board.rolls rest := by
  unfold rolls
  rw [course_cons, List.filterMap_cons_none h]

theorem rolls_cons_of_ne {a : Action} (h : a ≠ .cycle) (b : Board) (now : Instant)
    (rest : Script) : b.rolls ((now, a) :: rest) = (b.perform now a).board.rolls rest :=
  rolls_cons_none (Call.roll_eq_none h) rest

/-- A first call that is a roll is the first of the rolls. -/
theorem rolls_cons_some {b : Board} {now : Instant} {a : Action} {r : Roll}
    (h : (⟨b, now, a⟩ : Call).roll? = some r) (rest : Script) :
    b.rolls ((now, a) :: rest) = r :: (b.perform now a).board.rolls rest := by
  unfold rolls
  rw [course_cons, List.filterMap_cons_some h]

/-- After a script the source has moved on by as many bytes as there were
rolls. -/
theorem random_of_rolls (script : Script) :
    ∀ b : Board, (b.run script).random = b.random.after (b.rolls script).length := by
  induction script with
  | nil => intro b; rfl
  | cons call rest ih =>
      intro b
      obtain ⟨now, a⟩ := call
      rw [run_cons, ih]
      cases hroll : (⟨b, now, a⟩ : Call).roll? with
      | none =>
          have hsame : (b.perform now a).board.random = b.random := Call.random_of_no_roll hroll
          rw [rolls_cons_none hroll, hsame]
      | some r =>
          have hnext : (b.perform now a).board.random = b.random.next.2 :=
            Call.random_of_roll hroll
          rw [rolls_cons_some hroll, hnext, List.length_cons, Random.Generator.after_next]

/-- The rolls of a script get the bytes one by one of the stream that the
source yields. -/
theorem value_of_rolls (script : Script) :
    ∀ (b : Board) (bytes : Nat → UInt8), b.random.Yields bytes →
      ∀ (k : Nat) (r : Roll), (b.rolls script)[k]? = some r → r.value = bytes k &&& r.mask := by
  induction script with
  | nil => intro b bytes _ k r h; cases h
  | cons call rest ih =>
      intro b bytes hyields k r h
      obtain ⟨now, a⟩ := call
      cases hroll : (⟨b, now, a⟩ : Call).roll? with
      | none =>
          -- The rest has the same rolls, and they start from the same byte.
          have hsame : (b.perform now a).board.random = b.random := Call.random_of_no_roll hroll
          rw [rolls_cons_none hroll] at h
          rw [← hsame] at hyields
          exact ih _ bytes hyields k r h
      | some first =>
          -- Roll `k` of the rest is roll `k + 1` here, and the rest of the stream has shifted
          -- alike.
          have hnext : (b.perform now a).board.random = b.random.next.2 :=
            Call.random_of_roll hroll
          rw [rolls_cons_some hroll] at h
          cases k with
          | zero =>
              rw [List.getElem?_cons_zero] at h
              obtain rfl := Option.some.inj h
              rw [Call.value_of_roll hroll, ← hyields.first]
          | succ k =>
              rw [List.getElem?_cons_succ] at h
              have hrest := hyields.rest
              rw [← hnext] at hrest
              exact ih _ _ hrest k r h

/-- A program that begins with CXNN rolls in its first cycle. -/
theorem rolls_of_load_cycle {program : Array UInt8} {x : Reg} {mask : UInt8}
    (hsize : program.size ≤ Memory.capacity)
    (hdec : Instr.decode?
      (UInt16.ofNat ((program.getD 0 0).toNat * 256 + (program.getD 1 0).toNat))
        = some (.random x mask)) (b : Board) (now now' : Instant) (rest : Script) :
    ∃ value b', b.rolls ((now, .load program) :: (now', .cycle) :: rest)
      = ⟨x, mask, value⟩ :: Board.rolls b' rest := by
  obtain ⟨b', hload, hrun, hdec', -, -⟩ := load_first program hsize hdec b now
  have hcycle : (b'.perform now' .cycle).reply = .ran (.random x mask) := by
    rw [perform_cycle, cycle_of_exec hrun hdec' rfl]
    rfl
  have hroll : (⟨b', now', .cycle⟩ : Call).roll?
      = some ⟨x, mask, (b'.perform now' .cycle).board.registers.get x⟩ := by
    unfold Call.roll? Call.step
    rw [hcycle]
  rw [rolls_cons_of_ne (a := .load program) nofun, hload, rolls_cons_some hroll]
  exact ⟨_, _, rfl⟩

end Board

namespace History

/-- The rolls since the machine was built, in their order. -/
def rolls (h : History) : List Roll := h.course.filterMap Call.roll?

/-- The source that the machine was built with. -/
def source (h : History) : Random.Generator :=
  (Machine.new h.config h.entropy h.start).machine.random

/-- The key of that source: the one that the seed stands for if the
configuration gives a seed, and one drawn by chance if it gives none. -/
def key (h : History) : Random.ChaCha.Key := (h.config.seed.map Random.keyOfSeed).getD h.entropy

/-- The machine is built with nothing drawn from the source of its key. -/
theorem source_eq (h : History) : h.source = .ofKey h.key := rfl

/-- A seed in the configuration is all that the key is made from. -/
theorem key_of_seed {h : History} {seed : UInt64} (hseed : h.config.seed = some seed) :
    h.key = Random.keyOfSeed seed := by
  unfold key
  rw [hseed]
  rfl

/-- Every CXNN takes the next byte of one stream, from the building of the
machine on.

Whichever bytes it is that the source yields which the machine was built
with, and whatever a history is made of, its `k`-th roll leaves byte `k` of
them in its register, under its mask. The source has moved on by as many
bytes as there were rolls: each roll moves it on by one, and no other call
moves it. The bytes are those of the key stream. If the configuration gives
a seed, the key is the one that the seed stands for, and in any history
with the same seed in which the same instructions rolled, they rolled the
same. -/
theorem rolls_follow_stream (h : History) :
    (∀ bytes, h.source.Yields bytes →
        ∀ k r, h.rolls[k]? = some r → r.value = bytes k &&& r.mask)
      ∧ h.source.Yields (Random.byteAt h.key)
      ∧ h.board.random = h.source.after h.rolls.length
      ∧ (∀ c ∈ h.course,
          (∀ r, c.roll? = some r → c.step.board.random = c.before.random.next.2)
            ∧ (c.roll? = none → c.step.board.random = c.before.random))
      ∧ ∀ seed, h.config.seed = some seed →
          h.source = .ofKey (Random.keyOfSeed seed)
            ∧ ∀ h' : History, h'.config.seed = some seed →
                h.rolls.map Roll.instr = h'.rolls.map Roll.instr → h.rolls = h'.rolls := by
  have hvalues : ∀ (h : History) bytes, h.source.Yields bytes →
      ∀ k r, h.rolls[k]? = some r → r.value = bytes k &&& r.mask :=
    fun h => Board.value_of_rolls h.calls (Board.built h.config h.entropy h.start)
  have hseeded : ∀ (h : History) {seed}, h.config.seed = some seed →
      h.source = .ofKey (Random.keyOfSeed seed) := by
    intro h seed hseed
    rw [source_eq, key_of_seed hseed]
  have hyields : h.source.Yields (Random.byteAt h.key) := Random.Generator.yields_ofKey h.key
  refine ⟨hvalues h, hyields, Board.random_of_rolls h.calls _, fun c _ => ⟨fun r =>
    Call.random_of_roll, Call.random_of_no_roll⟩, fun seed hseed => ⟨hseeded h hseed,
    fun h' hseed' hinstrs => ?_⟩⟩
  have hsource : h'.source = h.source := (hseeded h' hseed').trans (hseeded h hseed).symm
  have hvalues' := hvalues h'
  rw [hsource] at hvalues'
  exact Roll.eq_of_instrs (hvalues h _ hyields) (hvalues' _ hyields) hinstrs

/-- A roll under a mask that keeps nothing. -/
def blank : Array UInt8 := #[0xC1, 0x00]

/-- A roll of sixteen. -/
def die : Array UInt8 := #[0xC2, 0x0F]

/-- Two rolls, and nothing between them but a load. -/
def straight : History :=
  ⟨{ seed := some 7 }, Random.keyOfSeed 0, 0,
    [(1, .load blank), (2, .cycle), (3, .load die), (4, .cycle)]⟩

/-- The same rolls on a machine that was built later and in another
dialect, with a stop, an idle cycle and a reset between them. -/
def interrupted : History :=
  ⟨{ shiftSource := .vy, seed := some 7 }, Random.keyOfSeed 1, 50,
    [(51, .setDelay 9), (52, .load blank), (53, .cycle), (54, .stop), (55, .cycle), (56, .reset),
      (57, .load die), (58, .cycle)]⟩

/-- Both rolled nothing first, and then 7, the low half of the second byte
that the seed stands for. -/
theorem interrupted_rolls_alike :
    straight.rolls = interrupted.rolls ∧ straight.rolls = [⟨1, 0, 0⟩, ⟨2, 0x0F, 7⟩] := by
  have hblank := @Board.rolls_of_load_cycle blank 1 0 (by decide) rfl
  have hdie := @Board.rolls_of_load_cycle die 2 0x0F (by decide) rfl
  obtain ⟨v, w, hstraight⟩ : ∃ v w, straight.rolls = [⟨1, 0, v⟩, ⟨2, 0x0F, w⟩] := by
    show ∃ v w, (Board.built _ _ _).rolls _ = _
    obtain ⟨v, b, hfirst⟩ := hblank (Board.built _ _ _) 1 2 [(3, .load die), (4, .cycle)]
    obtain ⟨w, b', hsecond⟩ := hdie b 3 4 []
    exact ⟨v, w, hfirst.trans (congrArg _ hsecond)⟩
  obtain ⟨v', w', hinterrupted⟩ : ∃ v w, interrupted.rolls = [⟨1, 0, v⟩, ⟨2, 0x0F, w⟩] := by
    show ∃ v w, (Board.built _ _ _).rolls _ = _
    generalize Board.built _ _ _ = b
    obtain ⟨v, b₁, hfirst⟩ := hblank (b.perform 51 (.setDelay 9)).board 52 53
      [(54, .stop), (55, .cycle), (56, .reset), (57, .load die), (58, .cycle)]
    have hidle : (⟨(b₁.perform 54 .stop).board, 55, .cycle⟩ : Call).roll? = none := by
      unfold Call.roll? Call.step
      rw [Board.perform_cycle, Board.cycle_of_stopped rfl]
      rfl
    rw [Board.rolls_cons_of_ne (a := .stop) nofun, Board.rolls_cons_none hidle,
      Board.rolls_cons_of_ne (a := .reset) nofun] at hfirst
    obtain ⟨w, b₂, hsecond⟩ := hdie _ 57 58 []
    exact ⟨v, w, (Board.rolls_cons_of_ne (a := .setDelay 9) nofun b 51 _).trans
      (hfirst.trans (congrArg _ hsecond))⟩
  obtain ⟨hvalues, hyields, -, -, hseeded⟩ := straight.rolls_follow_stream
  obtain ⟨-, hreplay⟩ := hseeded 7 rfl
  have hbyte : Random.byteAt straight.key 1 &&& 0x0F = 7 := by decide +kernel
  refine ⟨hreplay interrupted rfl (by rw [hstraight, hinterrupted]; rfl), ?_⟩
  have hfirst := hvalues _ hyields 0 ⟨1, 0, v⟩ (by rw [hstraight]; rfl)
  have hsecond := hvalues _ hyields 1 ⟨2, 0x0F, w⟩ (by rw [hstraight]; rfl)
  dsimp only at hfirst hsecond
  rw [hstraight, hfirst, hsecond, UInt8.and_zero, hbyte]

end History

end Chip8
