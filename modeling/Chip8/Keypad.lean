/-
The keypad: sixteen keys that are up or down, and perhaps a wait for one
of them.

A wait is over when a key is down that was up at the last look. So a
wait remembers who asked and the keys as they were when last looked at
(`seen`); without a wait there is nothing to remember, and none is kept.
Holding a key down does not end a wait, and pressing and releasing one
between two looks goes unnoticed.

Who asks is up to the user of the keypad (`α`): the machine waits on
behalf of one of its registers.
-/

namespace Chip8

/-- The number of a key. -/
abbrev Key := Fin 16

/-- Which keys are down. -/
abbrev Keys := Vector Bool 16

namespace Key

/-- The names of the keys, in the order of their numbers. -/
def names : Vector String 16 := #v[
  "Key0", "Key1", "Key2", "Key3", "Key4", "Key5", "Key6", "Key7",
  "Key8", "Key9", "A", "B", "C", "D", "E", "F"]

def name (k : Key) : String := names[k]

/-- The key with a number, if there is one. -/
def ofNat? (n : Nat) : Option Key := if h : n < 16 then some ⟨n, h⟩ else none

def ofName? (s : String) : Option Key := (List.finRange 16).find? fun k => name k == s

end Key

namespace Keys

/-- No key is down. -/
def allUp : Keys := Vector.replicate 16 false

/-- Exactly the keys of a list are down. -/
def ofList (ks : List Key) : Keys := Vector.ofFn fun k => decide (k ∈ ks)

/-- The lowest key that is down in `now` and up in `before`. -/
def fresh? (before now : Keys) : Option Key :=
  (List.finRange 16).find? fun k => !before[k] && now[k]

end Keys

/-- A wait for a key: who asked for it, and the keys as last looked
at. -/
structure KeyWait (α : Type) where
  asker : α
  seen : Keys
  deriving DecidableEq

structure Keypad (α : Type) where
  down : Keys
  wait : Option (KeyWait α)
  deriving DecidableEq

namespace Keypad

variable {α : Type}

/-- All keys up, and no wait. -/
def idle : Keypad α := ⟨Keys.allUp, none⟩

def isWaiting (k : Keypad α) : Bool := k.wait.isSome

/-- Whether the key with a number is down; a number that is no key's
never is. -/
def isDown (k : Keypad α) (code : Nat) : Bool := k.down[code]?.getD false

/-- Press or release a key. -/
def set (k : Keypad α) (key : Key) (isDown : Bool) : Keypad α :=
  { k with down := k.down.set key.val isDown key.isLt }

/-- Have exactly the listed keys down. -/
def update (k : Keypad α) (keys : List Key) : Keypad α := { k with down := Keys.ofList keys }

/-- Begin to wait, taking the keys as they are for seen. -/
def await (k : Keypad α) (asker : α) : Keypad α := { k with wait := some ⟨asker, k.down⟩ }

/-- Look at the keys. If a wait is on and a key has newly gone down, the
wait is over, and who asked and the lowest such key come back; otherwise
a wait that is on goes on from the keys as they are now. -/
def poll (k : Keypad α) : Option (α × Key) × Keypad α :=
  match k.wait with
  | none => (none, k)
  | some w =>
    match Keys.fresh? w.seen k.down with
    | some key => (some (w.asker, key), { k with wait := none })
    | none => (none, { k with wait := some { w with seen := k.down } })

end Keypad

end Chip8
