/-
A host may tell a machine which keys are held, or tell it of each key by
itself.

# One keypad

The keys that are held come as a list, and whoever gets it finds out
which keys differ from it and presses or releases those
(`KeyLatch.update`). A host that passes on the key presses as they come
sets one key after the other (`KeyLatch.set`). Setting each of the
sixteen keys as the list has it comes to the same, in whatever order
(`setEach_all`): no key is set twice, and setting a key looks at nothing.
Neither way touches what a wait for a key remembers.

# Scripts

A host takes turns: it makes a call, or it passes on which keys are held,
in one of these two ways. Two scripts are alike if they make the same
calls and pass on the same keys, turn by turn (`Alike`). What comes of a
turn, the answers, the events and the whole board after it, is the same
in both scripts (`accounts_of_alike`).
-/
import Chip8.Proofs.Checked.Storage
import Chip8.Proofs.Interleaving
import Chip8.Proofs.Observation

namespace Chip8

-- =========================================================== one keypad

namespace KeyLatch

/-- Press or release a key. -/
def set (k : KeyLatch) (key : Key) (isDown : Bool) : KeyLatch :=
  { k with down := (k.keypad.set key isDown).down }

/-- Press or release keys one after the other, each as it is held. -/
def setEach (k : KeyLatch) (held : Key → Bool) (order : List Key) : KeyLatch :=
  order.foldl (fun k key => k.set key (held key)) k

/-- Press or release the keys that are not yet as a list has them. -/
def update (k : KeyLatch) (keys : List Key) : Option KeyLatch := do
  return { k with down := ← Checked.follow k.down (← Checked.held keys) }

/-- A latch with exactly the keys down that are held. -/
def holding (k : KeyLatch) (held : Key → Bool) : KeyLatch := { k with down := Vector.ofFn held }

/-- All keys taken over at once are as they are held. -/
theorem update_eq (k : KeyLatch) (keys : List Key) :
    k.update keys = some (k.holding fun key => decide (key ∈ keys)) := by
  unfold update
  rw [Checked.held_eq]
  simp only [Option.bind_eq_bind, Option.bind_some]
  rw [Checked.follow_eq]
  rfl

theorem seen_holding (k : KeyLatch) (held : Key → Bool) : (k.holding held).seen = k.seen := by
  unfold holding
  rfl

theorem asker_holding (k : KeyLatch) (held : Key → Bool) : (k.holding held).asker = k.asker := by
  unfold holding
  rfl

theorem down_holding (k : KeyLatch) (held : Key → Bool) (key : Key) :
    (k.holding held).down.get key = held key := by
  rw [Vector.get_eq_getElem]
  exact Vector.getElem_ofFn _

/-- Setting a key changes that one only. -/
theorem down_set (k : KeyLatch) (key other : Key) (isDown : Bool) :
    (k.set key isDown).down.get other = if key = other then isDown else k.down.get other := by
  show (k.down.set key.val isDown key.isLt).get other = _
  rw [Vector.get_eq_getElem, Vector.getElem_set]
  by_cases h : key = other
  · subst h
    rw [if_pos rfl, if_pos rfl]
  · rw [if_neg (fun hval => h (Fin.ext hval)), if_neg h, Vector.get_eq_getElem]

/-- Of the keys, those that are set are as they are held, and the others
as they were. -/
theorem setEach_eq (held : Key → Bool) (order : List Key) :
    ∀ k : KeyLatch, ∃ down : Keys, k.setEach held order = { k with down := down }
        ∧ ∀ key, down.get key = if key ∈ order then held key else k.down.get key := by
  induction order with
  | nil =>
      intro k
      exact ⟨k.down, rfl, fun key => (if_neg List.not_mem_nil).symm⟩
  | cons first order ih =>
      intro k
      obtain ⟨down, hset, hdown⟩ := ih (k.set first (held first))
      refine ⟨down, hset, ?_⟩
      intro key
      rw [hdown, down_set]
      -- a key that comes again is set again, and to the same
      by_cases hkey : key ∈ order
      · rw [if_pos hkey, if_pos (List.mem_cons_of_mem first hkey)]
      · rw [if_neg hkey]
        by_cases hfirst : first = key
        · subst hfirst
          rw [if_pos rfl, if_pos List.mem_cons_self]
        · have hnone : key ∉ first :: order := by
            intro hmem
            exact hkey (List.mem_of_ne_of_mem (Ne.symm hfirst) hmem)
          rw [if_neg hfirst, if_neg hnone]

/-- Setting every key as it is held, in whatever order. -/
theorem setEach_all {order : List Key} (horder : order.Perm (List.finRange 16))
    (held : Key → Bool) (k : KeyLatch) : k.setEach held order = k.holding held := by
  obtain ⟨down, hset, hdown⟩ := setEach_eq held order k
  have hall : down = Vector.ofFn held := by
    apply Vector.ext
    intro i hi
    have hmem : (⟨i, hi⟩ : Key) ∈ order := horder.mem_iff.mpr (List.mem_finRange _)
    have hkey := hdown ⟨i, hi⟩
    rw [if_pos hmem, Vector.get_eq_getElem] at hkey
    rw [Vector.getElem_ofFn]
    exact hkey
  rw [hset, hall]
  rfl

end KeyLatch

-- ============================================================== scripts

/-- Set one key after the other, each at its instant and as it is held. -/
def keyByKey (held : Key → Bool) (calls : List (Instant × Key)) : Script :=
  calls.map fun call => (call.1, .setKey (UInt8.ofNat call.2.val) (held call.2))

theorem keyByKey_cons (held : Key → Bool) (now : Instant) (key : Key)
    (calls : List (Instant × Key)) :
    keyByKey held ((now, key) :: calls)
      = (now, .setKey (UInt8.ofNat key.val) (held key)) :: keyByKey held calls := rfl

/-- The calls by which a host passes on which keys are held: all at once
as a list, in which a key may stand more than once, or a call for every
key, in whatever order. -/
inductive PassesOn (held : Finset Key) : Script → Prop where
  | atOnce (now : Instant) {keys : List Key} :
      keys.toFinset = held → PassesOn held [(now, .setKeys keys)]
  | oneByOne {calls : List (Instant × Key)} :
      (calls.map Prod.snd).Perm (List.finRange 16) →
      PassesOn held (keyByKey (fun key => decide (key ∈ held)) calls)

/-- Two ways to take a turn: to make a call, or to pass on the keys that
are held. -/
inductive Alike : Script → Script → Prop where
  | call (now : Instant) (a : Action) : Alike [(now, a)] [(now, a)]
  | keys {held : Finset Key} {turn turn' : Script} :
      PassesOn held turn → PassesOn held turn' → Alike turn turn'

/-- What comes of a turn: the different answers that the host gets, the
events, and the board as it is afterwards. -/
structure Account where
  replies : List Reply
  events : List Event
  after : Board

namespace Board

def account (b : Board) (turn : Script) : Account where
  replies := ((b.observe turn).map Sight.reply).dedup
  events := (b.observe turn).flatMap Sight.events
  after := b.run turn

/-- What comes of one turn after the other. -/
def accounts (b : Board) : List Script → List Account
  | [] => []
  | turn :: rest => b.account turn :: (b.run turn).accounts rest

/-- Setting a key by its number sets that key, as each number of a key is
one. -/
theorem perform_key (b : Board) (now : Instant) (key : Key) (isDown : Bool) :
    b.perform now (.setKey (UInt8.ofNat key.val) isDown)
      = ⟨.done, { b with keys := b.keys.set key isDown }, []⟩ := by
  have hcode : (UInt8.ofNat key.val).toNat = key.val := by
    rw [UInt8.toNat_ofNat', Nat.mod_eq_of_lt]
    exact key.isLt.trans (by decide)
  have hkey : (UInt8.ofNat key.val).toNat < 16 := by
    rw [hcode]
    exact key.isLt
  rw [perform_setKey hkey]
  simp only [hcode]
  rfl

/-- Setting one key after the other, each as it is held, is done call by
call, and says nothing. -/
theorem run_keyByKey (held : Key → Bool) (calls : List (Instant × Key)) :
    ∀ b : Board,
      b.run (keyByKey held calls) = { b with keys := b.keys.setEach held (calls.map Prod.snd) }
        ∧ (b.observe (keyByKey held calls)).map Sight.reply = List.replicate calls.length .done
        ∧ (b.observe (keyByKey held calls)).flatMap Sight.events = [] := by
  induction calls with
  | nil => intro b; exact ⟨rfl, rfl, rfl⟩
  | cons call rest ih =>
      intro b
      obtain ⟨now, key⟩ := call
      obtain ⟨hrun, hreplies, hevents⟩ := ih { b with keys := b.keys.set key (held key) }
      rw [keyByKey_cons]
      simp only [run, observe, perform_key, List.map_cons, List.flatMap_cons, List.nil_append,
        List.length_cons, List.replicate_succ, hreplies]
      exact ⟨hrun, trivial, hevents⟩

/-- Whichever way a host passes on which keys are held, those are down
afterwards, and nothing else has changed. -/
theorem account_of_passesOn {held : Finset Key} {turn : Script} (h : PassesOn held turn)
    (b : Board) :
    b.account turn
      = ⟨[.done], [], { b with keys := b.keys.holding fun key => decide (key ∈ held) }⟩ := by
  cases h with
  | @atOnce now keys hkeys =>
      subst hkeys
      have hmem : (fun key : Key => decide (key ∈ keys.toFinset))
          = fun key => decide (key ∈ keys) := by
        funext key
        exact decide_eq_decide.mpr List.mem_toFinset
      rw [hmem]
      rfl
  | @oneByOne calls hcalls =>
      obtain ⟨hrun, hreplies, hevents⟩ := b.run_keyByKey (fun key => decide (key ∈ held)) calls
      have hlength : calls.length = 16 := by
        rw [← List.length_map (f := Prod.snd), hcalls.length_eq, List.length_finRange]
      unfold account
      rw [hrun, hreplies, hevents, KeyLatch.setEach_all hcalls, hlength,
        List.replicate_dedup (by decide)]

/-- Turns that come to the same for the keys come to the same for the
board. -/
theorem account_of_alike {turn turn' : Script} (h : Alike turn turn') (b : Board) :
    b.account turn = b.account turn' := by
  cases h with
  | call now a => rfl
  | keys h h' => rw [account_of_passesOn h, account_of_passesOn h']

/-- Nothing that comes of a script tells which way the host passes on the
keys. -/
theorem accounts_of_alike {turns turns' : List Script} (h : List.Forall₂ Alike turns turns') :
    ∀ b : Board, b.accounts turns = b.accounts turns' := by
  induction h with
  | nil => intro b; rfl
  | @cons turn turn' rest rest' hturn _ ih =>
      intro b
      have haccount := account_of_alike hturn b
      have hafter : b.run turn = b.run turn' := congrArg Account.after haccount
      rw [accounts, accounts, haccount, hafter, ih]

/-- Polling and passing on events come to the same. To update the keypad
with a list has exactly those keys down that the list names and leaves
the wait and the keys as last looked at alone, as setting the sixteen keys
one by one does in any order; and so scripts that differ only in how they
pass on the keys, or in how the list names them, get the same answers and
events turn by turn, and the same board. -/
theorem polling_eq_events :
    (∀ (k : KeyLatch) (keys : List Key), ∃ k', k.update keys = some k'
        ∧ (∀ key, k'.down.get key = true ↔ key ∈ keys) ∧ k'.seen = k.seen ∧ k'.asker = k.asker
        ∧ (∀ order : List Key, order.Perm (List.finRange 16) →
          k.setEach (fun key => decide (key ∈ keys)) order = k')
        ∧ ∀ (b : Board) (now : Instant), b.keys = k →
          (b.perform now (.setKeys keys)).board = { b with keys := k' })
      ∧ ∀ (turns turns' : List Script), List.Forall₂ Alike turns turns' →
        ∀ b : Board, b.accounts turns = b.accounts turns' := by
  constructor
  · intro k keys
    refine ⟨_, k.update_eq keys, ?_, k.seen_holding _, k.asker_holding _, ?_, ?_⟩
    · intro key
      rw [KeyLatch.down_holding, decide_eq_true_iff]
    · intro order horder
      exact KeyLatch.setEach_all horder _ k
    · intro b now hk
      subst hk
      rfl
  · intro turns turns' h
    exact accounts_of_alike h

/-- Begin a wait, pass on which keys are held, and look for a new one. -/
def waiting (turn : Script) : List Script := [[(0, .cycle)], turn, [(2, .cycle)]]

/-- Set the keys in an order. -/
def inOrder (order : List Key) (held : Finset Key) : Script :=
  keyByKey (fun key => decide (key ∈ held)) (order.map fun key => (1, key))

/-- Setting all keys at once and in an order are alike between two cycles. -/
theorem alike_waiting {keys order : List Key} (horder : order.Perm (List.finRange 16)) :
    List.Forall₂ Alike (waiting [(1, .setKeys keys)]) (waiting (inOrder order keys.toFinset)) := by
  have hcalls : ((order.map fun key => ((1 : Instant), key)).map Prod.snd).Perm (List.finRange 16) := by
    rw [List.map_map]
    exact (List.map_id order).symm ▸ horder
  exact .cons (.call 0 .cycle) (.cons (.keys (.atOnce 1 rfl) (.oneByOne hcalls))
    (.cons (.call 2 .cycle) .nil))

/-- A key is pressed and another let go while V3 is waited for. Whether the
host sets them at once, or in falling order, both boards give the same
account. -/
theorem polling_eq_events_waiting :
    (List.finRange 16).reverse.Perm (List.finRange 16)
      ∧ KeyLatch.setEach ⟨Keys.ofList [5, 7], Keys.allUp, some 3⟩ (fun key => decide (key ∈ [9, 5, 9]))
          (List.finRange 16).reverse = ⟨Keys.ofList [5, 9], Keys.allUp, some 3⟩
      ∧ List.Forall₂ Alike (waiting [(1, .setKeys [9, 5, 9])])
          (waiting (inOrder (List.finRange 16).reverse [9, 5, 9].toFinset))
      ∧ beforeWait.accounts (waiting [(1, .setKeys [9, 5, 9])])
        = beforeWait.accounts (waiting (inOrder (List.finRange 16).reverse [9, 5, 9].toFinset)) := by
  have horder : (List.finRange 16).reverse.Perm (List.finRange 16) := List.reverse_perm _
  obtain ⟨k', hupdate, -, -, -, heach, -⟩ :=
    polling_eq_events.1 ⟨Keys.ofList [5, 7], Keys.allUp, some 3⟩ [9, 5, 9]
  obtain rfl : ⟨Keys.ofList [5, 9], Keys.allUp, some 3⟩ = k' := by
    apply Option.some.inj
    rw [← hupdate, KeyLatch.update_eq]
    decide
  refine ⟨horder, heach _ horder, alike_waiting horder, ?_⟩
  exact polling_eq_events.2 _ _ (alike_waiting horder) beforeWait

end Board

end Chip8
