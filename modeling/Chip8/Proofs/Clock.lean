/-
A clock that is asked over and over counts every interval once.

# One call

The clock answers with a quotient. Counted out, that is a loop: for as
long as a whole interval lies between the last instant and now, the last
instant moves on by one (`advance`). The loop ends after as many rounds as
the quotient says, and never carries the last instant past now
(`rounds_due`).

# One call after the other

What is left of an interval is there for the next call, since a call
moves the last instant by whole intervals only. So a clock that was asked
at some instants, one not before the other, is the clock that was asked at
the latest of them and never before (`after_take`). Hence a call counts
what is due at its instant less what was due at the one before it, and all
the counts add up to what is due at the end.
-/
import Chip8.Proofs.Checked.Storage
import Chip8.Proofs.Decay

namespace Chip8.Clock

variable {c : Clock} {now later t : Instant} {polls : List Instant}

-- ============================================================ one call

/-- Account for one more interval. -/
def advance (c : Clock) : Clock := { c with last := c.last + c.interval }

/-- The clock lags behind an instant by a whole interval or more. -/
def Lags (c : Clock) (now : Instant) : Prop := c.interval ≤ now - c.last

/-- The loop of a call makes `n` rounds and ends, and no round carries the
last instant past the instant of the call. -/
structure Rounds (c : Clock) (now : Instant) (n : Nat) : Prop where
  goesOn : ∀ j, j < n → (advance^[j] c).Lags now
  ends : ¬ (advance^[n] c).Lags now
  inTime : ∀ j, j ≤ n → (advance^[j] c).last ≤ now

/-- So many advances move the clock on by so many intervals. -/
theorem advance_iterate (c : Clock) (n : Nat) :
    advance^[n] c = { c with last := c.last + n * c.interval } := by
  induction n with
  | zero =>
      rw [Nat.zero_mul]
      rfl
  | succ n ih =>
      rw [Function.iterate_succ_apply', ih, Nat.succ_mul, ← Nat.add_assoc]
      rfl

/-- After so many advances the clock lags still if fewer were made than are
due. -/
theorem lags_iterate_iff (hc : 0 < c.interval) (j : Nat) :
    (advance^[j] c).Lags now ↔ j < c.due now := by
  have hquotient : j < c.due now ↔ (j + 1) * c.interval ≤ now - c.last :=
    Nat.le_div_iff_mul_le hc
  rw [hquotient, advance_iterate, Nat.succ_mul]
  show c.interval ≤ now - (c.last + j * c.interval) ↔ _
  dsimp only [Instant]
  omega

/-- What is accounted for is past, and it is all but a part of an
interval. -/
theorem last_settle (hc : 0 < c.interval) (hlast : c.last ≤ now) :
    (c.settle now).2.last ≤ now ∧ now < (c.settle now).2.last + c.interval := by
  show c.last + c.due now * c.interval ≤ now ∧ now < c.last + c.due now * c.interval + c.interval
  have hle : c.due now * c.interval ≤ now - c.last := Nat.div_mul_le_self _ _
  have hlt : now - c.last < c.due now * c.interval + c.interval := Nat.lt_div_mul_add hc
  dsimp only [Instant] at *
  omega

/-- The loop goes round as often as intervals are due. -/
theorem rounds_due (hc : 0 < c.interval) (hlast : c.last ≤ now) : c.Rounds now (c.due now) where
  goesOn := fun j hj => (lags_iterate_iff hc j).mpr hj
  ends := fun h => Nat.lt_irrefl _ ((lags_iterate_iff hc _).mp h)
  inTime := by
    intro j hj
    rw [advance_iterate]
    have hfirst : j * c.interval ≤ c.due now * c.interval := Nat.mul_le_mul_right _ hj
    exact (Nat.add_le_add_left hfirst _).trans (last_settle hc hlast).1

/-- Settling the clock advances it by the intervals that are due. -/
theorem settle_eq_iterate (c : Clock) (now : Instant) :
    c.settle now = (c.due now, advance^[c.due now] c) := by
  rw [advance_iterate]
  rfl

/-- A clock without an interval never ticks. -/
theorem settle_of_still (hc : c.interval = 0) (now : Instant) : c.settle now = (0, c) := by
  have hnone : c.due now = 0 := by
    rw [due, hc, Nat.div_zero]
  rw [settle_eq_iterate, hnone]
  rfl

-- ============================================== one call after the other

/-- The clock after it was asked at some instants. -/
def after (c : Clock) (polls : List Instant) : Clock :=
  polls.foldl (fun c now => (c.settle now).2) c

/-- What the clock answers when it is asked at some instants. -/
def counts (c : Clock) : List Instant → List Nat
  | [] => []
  | now :: rest => (c.settle now).1 :: (c.settle now).2.counts rest

/-- A clock that is asked at the end of its last interval stays as it is. -/
theorem settle_last (c : Clock) : (c.settle c.last).2 = c := by
  have hnone : c.due c.last = 0 := by
    rw [due, Nat.sub_self, Nat.zero_div]
  rw [settle_eq_iterate, hnone]
  rfl

/-- A clock that was asked before answers the difference, and is then as if
it had not been. -/
theorem settle_settle (c : Clock) (h : now ≤ later) :
    (c.settle now).2.settle later = (c.due later - c.due now, (c.settle later).2) := by
  have hsum := c.due_add h
  refine Prod.ext ?_ ?_
  · show (c.settle now).2.due later = _
    omega
  · show ({ c with last := c.last + c.due now * c.interval
        + (c.settle now).2.due later * c.interval } : Clock)
      = { c with last := c.last + c.due later * c.interval }
    rw [← hsum, Nat.add_mul, Nat.add_assoc]

/-- An instant is not before the one in front of it. -/
theorem le_of_next {start : Instant} (hsorted : (start :: polls).Pairwise (· ≤ ·)) {k : Nat}
    {before : Instant} (hbefore : (start :: polls)[k]? = some before)
    (hnow : polls[k]? = some now) : before ≤ now := by
  obtain ⟨hk, rfl⟩ := List.getElem?_eq_some_iff.mp hbefore
  obtain ⟨hk', rfl⟩ := List.getElem?_eq_some_iff.mp hnow
  exact List.pairwise_iff_getElem.mp hsorted k (k + 1) hk (Nat.succ_lt_succ hk')
    (Nat.lt_succ_self k)

/-- No instant is before the first. -/
theorem le_of_start {start : Instant} (hsorted : (start :: polls).Pairwise (· ≤ ·)) {k : Nat}
    (h : (start :: polls)[k]? = some t) : start ≤ t := by
  rcases List.mem_cons.mp (List.mem_of_getElem? h) with heq | hmem
  · exact heq.ge
  · exact List.rel_of_pairwise_cons hsorted hmem

/-- Of the instants at which a clock was asked, the latest counts. -/
theorem after_take (hsorted : (c.last :: polls).Pairwise (· ≤ ·)) :
    ∀ {k : Nat} {t : Instant}, (c.last :: polls)[k]? = some t →
      c.after (polls.take k) = (c.settle t).2 := by
  intro k
  induction k with
  | zero =>
      intro t ht
      cases ht
      exact c.settle_last.symm
  | succ k ih =>
      intro t ht
      rw [List.getElem?_cons_succ] at ht
      obtain ⟨hk, hget⟩ := List.getElem?_eq_some_iff.mp ht
      have hbefore := List.getElem?_eq_getElem (l := c.last :: polls) (Nat.lt_succ_of_lt hk)
      rw [List.take_succ_eq_append_getElem hk, hget, after, List.foldl_concat]
      show ((c.after (polls.take k)).settle t).2 = _
      rw [ih hbefore, c.settle_settle (le_of_next hsorted hbefore ht)]

/-- What a call answers, and the clock as it leaves it. -/
theorem settle_after (hsorted : (c.last :: polls).Pairwise (· ≤ ·)) {k : Nat} {before : Instant}
    (hnow : polls[k]? = some now) (hbefore : (c.last :: polls)[k]? = some before) :
    (c.after (polls.take k)).settle now
      = (c.due now - c.due before, c.after (polls.take (k + 1))) := by
  have hnext : c.after (polls.take (k + 1)) = (c.settle now).2 := after_take hsorted hnow
  rw [after_take hsorted hbefore, hnext, c.settle_settle (le_of_next hsorted hbefore hnow)]

/-- What the `k`-th poll counts is what the clock counts that the polls
before it left. -/
theorem counts_getElem? (c : Clock) :
    ∀ (polls : List Instant) (k : Nat), (c.counts polls)[k]?
      = polls[k]?.map fun now => ((c.after (polls.take k)).settle now).1 := by
  intro polls
  induction polls generalizing c with
  | nil => intro k; rfl
  | cons now rest ih =>
      intro k
      cases k with
      | zero => rfl
      | succ k => exact ih (c.settle now).2 k

/-- The counts add up to what is due at the end. -/
theorem sum_counts (c : Clock) (hsorted : polls.Pairwise (· ≤ ·)) :
    (c.counts polls).sum = c.dueBy polls := by
  induction polls generalizing c with
  | nil => rfl
  | cons now rest ih =>
      show (c.due now :: (c.settle now).2.counts rest).sum = _
      rw [List.sum_cons, ih _ hsorted.of_cons, c.dueBy_cons hsorted]

theorem after_interval (c : Clock) (polls : List Instant) :
    (c.after polls).interval = c.interval := by
  induction polls generalizing c with
  | nil => rfl
  | cons now rest ih => exact ih (c.settle now).2

-- ============================================================ the result

/-- A clock loses no time and never runs ahead.

Let a clock with an interval be asked at instants that do not decrease and
are not before the last instant that it has accounted for, with fewer than
2^32 intervals due at each call. Then the loop of every call ends, and none
of its checks fails. A call answers the difference of what is due at its
instant and what was due at the call before, counted from the start; so the
answers add up to what is due at the end. What is accounted for is a whole
number of intervals, is past, and is all but a part of an interval. A
clock that is started anew answers like one built at that instant. A clock
without an interval answers zero and stays as it is. (`horizon` stands for
the first instant that is too late for the host's clock to tell.) -/
theorem no_time_is_lost (c : Clock) (polls : List Instant) (horizon : Instant) :
    (0 < c.interval → (c.last :: polls).Pairwise (· ≤ ·) → (∀ now ∈ polls, now < horizon) →
        (∀ k now, polls[k]? = some now → (c.after (polls.take k)).due now < 2 ^ 32) →
        (∀ k now before, polls[k]? = some now → (c.last :: polls)[k]? = some before →
          ∃ n, (c.after (polls.take k)).Rounds now n
            ∧ c.after (polls.take (k + 1)) = advance^[n] (c.after (polls.take k))
            ∧ (c.after (polls.take k)).settle now = (n, c.after (polls.take (k + 1)))
            ∧ Checked.settle horizon (c.after (polls.take k)) now
              = some (n, c.after (polls.take (k + 1)))
            ∧ (c.counts polls)[k]? = some n
            ∧ n = (now - c.last) / c.interval - (before - c.last) / c.interval
            ∧ (∃ q, (c.after (polls.take (k + 1))).last = c.last + q * c.interval)
            ∧ (c.after (polls.take (k + 1))).last ≤ now
            ∧ now < (c.after (polls.take (k + 1))).last + c.interval)
        ∧ ∀ now, polls.getLast? = some now →
          (c.counts polls).sum = (now - c.last) / c.interval)
      ∧ (∀ now later, ((c.after polls).restart now).counts later
        = (⟨c.interval, now⟩ : Clock).counts later)
      ∧ (c.interval = 0 → ∀ now,
        c.settle now = (0, c) ∧ Checked.settle horizon c now = some (0, c)) := by
  refine ⟨fun hc hsorted hhorizon hdue => ⟨?_, ?_⟩, ?_, ?_⟩
  · intro k now before hnow hbefore
    have hnext : c.after (polls.take (k + 1)) = (c.settle now).2 := after_take hsorted hnow
    have hcall := settle_after hsorted hnow hbefore
    have hcount : (c.after (polls.take k)).due now = c.due now - c.due before :=
      congrArg Prod.fst hcall
    have hlast : (c.after (polls.take k)).last ≤ now := by
      rw [after_take hsorted hbefore]
      exact (last_settle hc (le_of_start hsorted hbefore)).1.trans
        (le_of_next hsorted hbefore hnow)
    have hinterval : 0 < (c.after (polls.take k)).interval := by
      rw [after_interval]
      exact hc
    have hrounds := rounds_due hinterval hlast
    have hpart := last_settle hc (le_of_start (k := k + 1) hsorted hnow)
    rw [hcount] at hrounds
    refine ⟨_, hrounds, ?_, hcall, ?_, ?_, rfl, ⟨c.due now, ?_⟩, ?_, ?_⟩
    · rw [settle_eq_iterate, hcount] at hcall
      exact (congrArg Prod.snd hcall).symm
    · rw [← hcall]
      exact Checked.settle_eq (hhorizon now (List.mem_of_getElem? hnow)) hlast (hdue k now hnow)
    · rw [counts_getElem?, hnow, Option.map_some, hcall]
    · rw [hnext]
      rfl
    · rw [hnext]
      exact hpart.1
    · rw [hnext]
      exact hpart.2
  · intro now hlast
    rw [c.sum_counts hsorted.of_cons, dueBy_of_last hlast]
    rfl
  · intro now later
    unfold restart
    rw [after_interval]
  · intro hstill now
    refine ⟨settle_of_still hstill now, ?_⟩
    unfold Checked.settle
    rw [if_pos hstill]

/-- A clock that has accounted for all time up to 7, with an interval of
10. -/
def fromSeven : Clock := ⟨10, 7⟩

/-- The third call comes at the instant of the second and counts nothing;
the fourth comes when exactly one more interval is over. Without an
interval there would be nothing to count. -/
theorem fourth_call_counts_one :
    fromSeven.counts [12, 32, 32, 37] = [0, 2, 0, 1]
      ∧ (fromSeven.counts [12, 32, 32, 37]).sum = (37 - 7) / 10
      ∧ ∃ n, (fromSeven.after [12, 32, 32]).Rounds 37 n
        ∧ (fromSeven.counts [12, 32, 32, 37])[3]? = some n
        ∧ n = (37 - 7) / 10 - (32 - 7) / 10
        ∧ (fromSeven.after [12, 32, 32, 37]).last ≤ 37
        ∧ (⟨0, 7⟩ : Clock).settle 37 = (0, ⟨0, 7⟩) := by
  have hdue : ∀ k now, ([12, 32, 32, 37] : List Instant)[k]? = some now →
      (fromSeven.after (([12, 32, 32, 37] : List Instant).take k)).due now < 2 ^ 32 := by
    intro k now hnow
    have hk : k < 4 := (List.getElem?_eq_some_iff.mp hnow).1
    interval_cases k
    all_goals
      cases hnow
      decide
  obtain ⟨hcounting, -⟩ := no_time_is_lost fromSeven [12, 32, 32, 37] 38
  obtain ⟨hcalls, hsum⟩ := hcounting (by decide) (by decide) (by decide) hdue
  obtain ⟨n, hrounds, -, -, -, hcount, hn, -, hlast, -⟩ := hcalls 3 37 32 rfl rfl
  obtain ⟨-, -, hstill⟩ := no_time_is_lost ⟨0, 7⟩ [] 38
  exact ⟨by decide, hsum 37 rfl, n, hrounds, hcount, hn, hlast, (hstill rfl 37).1⟩

end Chip8.Clock
