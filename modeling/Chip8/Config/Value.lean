/-
Reading the value of a field. Each field has one reader, which is told
nothing of what is around the value; it is the same whether the value
stands in an array or behind a key.

A value of the wrong kind is an error that names what was found, and to
name a number or a string it must be read: a flaw in its form is then
the error instead. Of an array or an object, the opening bracket is
enough.
-/
import Chip8.Config.Error
import Chip8.Json.Skip

namespace Chip8.Config

open Json

/-- A reader of a part of a configuration. -/
abbrev Reader (α : Type) := List Char → Except Error (α × List Char)

/-- A flaw in the form, as an error of the configuration. -/
def lift {α : Type} : Except Flaw α → Except Error α
  | .error flaw => .error (.malformed flaw)
  | .ok a => .ok a

-- ============================================================ wrong kinds

/-- The kind of the value that starts with `c`, read as far as needed to
name it. -/
def Found.at? (c : Char) (r : List Char) : Except Flaw Found :=
  if c = '"' then (Str.read r).map fun (cs, _) => .string cs
  else if startsNumber c then
    (Number.scan .endInValue (c :: r)).bind fun (n, _) => n.value.map .ofNumeric
  else if c = 'n' then (literal ['u', 'l', 'l'] r).map fun _ => .null
  else if c = 't' then (literal ['r', 'u', 'e'] r).map fun _ => .boolean true
  else if c = 'f' then (literal ['a', 'l', 's', 'e'] r).map fun _ => .boolean false
  else if c = '[' then .ok .sequence
  else if c = '{' then .ok .map
  else .error .noValue

/-- The error that the value starting with `c` is, where something else
is wanted. -/
def mismatch (wanted : Wanted) (c : Char) (r : List Char) : Error :=
  match Found.at? c r with
  | .error flaw => .malformed flaw
  | .ok found => .wrongKind found wanted

-- ================================================================ values

/-- Read a boolean. -/
def readBool : Reader Bool := fun s =>
  match dropBlank s with
  | [] => .error (.malformed .endInValue)
  | c :: r =>
    if c = 't' then (lift (literal ['r', 'u', 'e'] r)).map (true, ·)
    else if c = 'f' then (lift (literal ['a', 'l', 's', 'e'] r)).map (false, ·)
    else .error (mismatch .boolean c r)

/-- Check that a number is a natural one below a bound. -/
def checkNatural (wanted : Wanted) (bound : Nat) : Json.Numeric → Except Error Nat
  | .natural n => if n < bound then .ok n else .error (.outOfRange n wanted)
  | .negative n => .error (.outOfRange (-n) wanted)
  | .real x => .error (.wrongKind (.real x) wanted)

/-- Read a natural number below a bound. -/
def readNatural (wanted : Wanted) (bound : Nat) : Reader Nat := fun s =>
  match dropBlank s with
  | [] => .error (.malformed .endInValue)
  | c :: r =>
    if startsNumber c then do
      let (number, r) ← lift (Number.scan .endInValue (c :: r))
      let n ← checkNatural wanted bound (← lift number.value)
      return (n, r)
    else .error (mismatch wanted c r)

/-- Read a byte. -/
def readByte : Reader UInt8 := fun s =>
  (readNatural .byte UInt8.size s).map fun (n, r) => (UInt8.ofNat n, r)

/-- Read a 64-bit number. -/
def readLong : Reader UInt64 := fun s =>
  (readNatural .long UInt64.size s).map fun (n, r) => (UInt64.ofNat n, r)

/-- Read a 64-bit number, or `null` for none. -/
def readOptionalLong : Reader (Option UInt64) := fun s =>
  match dropBlank s with
  | 'n' :: r => (lift (literal ['u', 'l', 'l'] r)).map (none, ·)
  | s => (readLong s).map fun (n, r) => (some n, r)

/-- Read `null`. -/
def readNull (s : List Char) : Except Error (List Char) :=
  match dropBlank s with
  | [] => .error (.malformed .endInValue)
  | c :: r => if c = 'n' then lift (literal ['u', 'l', 'l'] r) else .error (mismatch .unit c r)

/-- Read the name of a shift source, after its opening quote. -/
def readSourceName : Reader ShiftSource := fun s => do
  let (cs, r) ← lift (Str.read s)
  match ShiftSource.ofName? cs with
  | some source => return (source, r)
  | none => throw (.unknownSource cs)

/-- Go on from the opening bracket of an object to behind the opening
quote of its first key. The flag is unset if the object ends instead. -/
def firstKey : Json.Reader Bool := fun s =>
  match dropBlank s with
  | [] => .error .endInObject
  | c :: r =>
    if c = '}' then .ok (false, r)
    else if c = '"' then .ok (true, r)
    else .error .keyNotString

/-- Read the end of an object that has a single entry. -/
def closeSingle (s : List Char) : Except Error (List Char) :=
  match dropBlank s with
  | [] => .error (.malformed .endInObject)
  | c :: r => if c = '}' then .ok r else .error (.malformed .noValue)

/-- Read a shift source: its name, or an object with its name as the
only key and `null` for a value. In an object without a key the name is
missing, as a value can be. -/
def readSource : Reader ShiftSource := fun s =>
  match dropBlank s with
  | [] => .error (.malformed .endInValue)
  | c :: r =>
    if c = '"' then readSourceName r
    else if c = '{' then
      match firstKey r with
      | .error flaw => .error (.malformed flaw)
      | .ok (false, _) => .error (.malformed .noValue)
      | .ok (true, r) => do
        let (source, r) ← readSourceName r
        let r ← lift (colon r)
        let r ← readNull r
        let r ← closeSingle r
        return (source, r)
    else .error (.malformed .noValue)

-- ================================================================ fields

/-- Read the value of a field into a configuration. -/
def readField (f : Field) (c : Config) : Reader Config := fun s =>
  match f with
  | .shiftSource => (readSource s).map fun (v, r) => ({ c with shiftSource := v }, r)
  | .advancesIndex => (readBool s).map fun (v, r) => ({ c with advancesIndex := v }, r)
  | .flagsIndexOverflow => (readBool s).map fun (v, r) => ({ c with flagsIndexOverflow := v }, r)
  | .timerInterval => (readLong s).map fun (v, r) => ({ c with timerInterval := v }, r)
  | .timerStep => (readByte s).map fun (v, r) => ({ c with timerStep := v }, r)
  | .seed => (readOptionalLong s).map fun (v, r) => ({ c with seed := v }, r)

-- =============================================================== length

/-- Only what went well stands as it is under another kind of error. -/
theorem lift_eq_ok {α : Type} {x : Except Flaw α} {a : α} : lift x = .ok a ↔ x = .ok a := by
  cases x <;> simp [lift]

theorem readBool_length {s r : List Char} {v : Bool} (h : readBool s = .ok (v, r)) :
    r.length < s.length := by
  have hs := dropBlank_length_le s
  unfold readBool at h
  split at h
  · cases h
  · next hd =>
    simp only [hd, List.length_cons] at hs
    split at h
    · obtain ⟨q, hq, hr⟩ := map_eq_ok.1 h
      cases hr
      have := literal_length (lift_eq_ok.1 hq)
      omega
    · split at h
      · obtain ⟨q, hq, hr⟩ := map_eq_ok.1 h
        cases hr
        have := literal_length (lift_eq_ok.1 hq)
        omega
      · cases h

theorem readNatural_length {wanted : Wanted} {bound : Nat} {s r : List Char} {n : Nat}
    (h : readNatural wanted bound s = .ok (n, r)) : r.length < s.length := by
  have hs := dropBlank_length_le s
  unfold readNatural at h
  split at h
  · cases h
  · next hd =>
    simp only [hd, List.length_cons] at hs
    split at h
    · obtain ⟨⟨number, q⟩, hq, h⟩ := bind_eq_ok.1 h
      obtain ⟨v, -, h⟩ := bind_eq_ok.1 h
      obtain ⟨k, -, h⟩ := bind_eq_ok.1 h
      cases h
      have := Number.scan_length (lift_eq_ok.1 hq)
      simp only [List.length_cons] at this
      omega
    · cases h

theorem readLong_length {s r : List Char} {v : UInt64} (h : readLong s = .ok (v, r)) :
    r.length < s.length := by
  obtain ⟨q, hq, hr⟩ := map_eq_ok.1 h
  cases hr
  exact readNatural_length hq

theorem readByte_length {s r : List Char} {v : UInt8} (h : readByte s = .ok (v, r)) :
    r.length < s.length := by
  obtain ⟨q, hq, hr⟩ := map_eq_ok.1 h
  cases hr
  exact readNatural_length hq

theorem readOptionalLong_length {s r : List Char} {v : Option UInt64}
    (h : readOptionalLong s = .ok (v, r)) : r.length < s.length := by
  have hs := dropBlank_length_le s
  unfold readOptionalLong at h
  split at h
  · next hd =>
    simp only [hd, List.length_cons] at hs
    obtain ⟨q, hq, hr⟩ := map_eq_ok.1 h
    cases hr
    have := literal_length (lift_eq_ok.1 hq)
    omega
  · obtain ⟨q, hq, hr⟩ := map_eq_ok.1 h
    cases hr
    have := readLong_length hq
    omega

theorem readNull_length {s r : List Char} (h : readNull s = .ok r) : r.length < s.length := by
  have hs := dropBlank_length_le s
  unfold readNull at h
  split at h
  · cases h
  · next hd =>
    simp only [hd, List.length_cons] at hs
    split at h
    · have := literal_length (lift_eq_ok.1 h)
      omega
    · cases h

theorem readSourceName_length {s r : List Char} {v : ShiftSource}
    (h : readSourceName s = .ok (v, r)) : r.length < s.length := by
  obtain ⟨⟨cs, q⟩, hq, h⟩ := bind_eq_ok.1 h
  have := Str.read_length (lift_eq_ok.1 hq)
  dsimp only at h
  split at h <;> cases h
  exact this

theorem firstKey_length {s r : List Char} {b : Bool} (h : firstKey s = .ok (b, r)) :
    r.length < s.length := by
  have hs := dropBlank_length_le s
  unfold firstKey at h
  split at h
  · cases h
  · next hd =>
    simp only [hd, List.length_cons] at hs
    split at h
    · cases h
      omega
    · split at h <;> cases h
      omega

theorem closeSingle_length {s r : List Char} (h : closeSingle s = .ok r) :
    r.length < s.length := by
  have hs := dropBlank_length_le s
  unfold closeSingle at h
  split at h
  · cases h
  · next hd =>
    simp only [hd, List.length_cons] at hs
    split at h <;> cases h
    omega

theorem readSource_length {s r : List Char} {v : ShiftSource} (h : readSource s = .ok (v, r)) :
    r.length < s.length := by
  have hs := dropBlank_length_le s
  unfold readSource at h
  split at h
  · cases h
  · next hd =>
    simp only [hd, List.length_cons] at hs
    split at h
    · have := readSourceName_length h
      omega
    · split at h
      · split at h
        · cases h
        · cases h
        · next hk =>
          obtain ⟨⟨source, q1⟩, hq1, h⟩ := bind_eq_ok.1 h
          obtain ⟨q2, hq2, h⟩ := bind_eq_ok.1 h
          obtain ⟨q3, hq3, h⟩ := bind_eq_ok.1 h
          obtain ⟨q4, hq4, h⟩ := bind_eq_ok.1 h
          cases h
          have := firstKey_length hk
          have := readSourceName_length hq1
          have := colon_length (lift_eq_ok.1 hq2)
          have := readNull_length hq3
          have := closeSingle_length hq4
          omega
      · cases h

/-- The value of a field takes up at least one character. -/
theorem readField_length {f : Field} {c c' : Config} {s r : List Char}
    (h : readField f c s = .ok (c', r)) : r.length < s.length := by
  cases f <;> obtain ⟨q, hq, hr⟩ := map_eq_ok.1 h <;> cases hr
  · exact readSource_length hq
  · exact readBool_length hq
  · exact readBool_length hq
  · exact readLong_length hq
  · exact readByte_length hq
  · exact readOptionalLong_length hq

end Chip8.Config
