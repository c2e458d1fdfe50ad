/-
Reading a configuration from JSON. It is written as an object, whose
keys are the names of fields, or as an array of values in the order of
the fields. Either way a field that is not given keeps its default.

In an object, entries may come in any order; a key that is no field's is
passed over together with its value, and a field may come only once. The
check is made as soon as the key has been read. An array may end early
but has no room for more values than there are fields.

Commas separate and do not terminate: behind the last value there is
none.
-/
import Chip8.Config.Value

namespace Chip8.Config

open Json

-- =============================================================== objects

/-- Go on from a value to behind the opening quote of the next key. The
flag is unset if the object ends instead. -/
def nextKey : Json.Reader Bool := fun s =>
  match dropBlank s with
  | [] => .error .endInObject
  | c :: r =>
    if c = '}' then .ok (false, r)
    else if c = ',' then
      match dropBlank r with
      | [] => .error .endInValue
      | d :: r =>
        if d = '"' then .ok (true, r)
        else if d = '}' then .error .trailingComma
        else .error .keyNotString
    else .error .noCommaInObject

/-- Read an entry, from behind the opening quote of its key. Beside the
configuration stand the fields that have been given. -/
def readEntry (c : Config) (given : List Field) : Reader (Config × List Field) := fun s => do
  let (key, r) ← lift (Str.read s)
  match Field.ofName? key with
  | none =>
    let r ← lift (colon r)
    let r ← lift (skipValue r)
    return ((c, given), r)
  | some f =>
    if f ∈ given then throw (.duplicate f)
    let r ← lift (colon r)
    let (c, r) ← readField f c r
    return ((c, f :: given), r)

/-- Looking for another key takes a character at least: a comma, or the
brace that closes the object. -/
theorem nextKey_length {s r : List Char} {b : Bool} (h : nextKey s = .ok (b, r)) :
    r.length < s.length := by
  have hs := dropBlank_length_le s
  unfold nextKey at h
  split at h
  · cases h
  · next c t hd =>
    simp only [hd, List.length_cons] at hs
    have ht := dropBlank_length_le t
    split at h
    · cases h
      omega
    · split at h
      · split at h
        · cases h
        · next hd' =>
          simp only [hd', List.length_cons] at ht
          split at h
          · cases h
            omega
          · split at h <;> cases h
      · cases h

/-- An entry takes a character at least, so the reader of objects comes to
an end. -/
theorem readEntry_length {c : Config} {given : List Field} {s r : List Char}
    {p : Config × List Field} (h : readEntry c given s = .ok (p, r)) : r.length < s.length := by
  obtain ⟨⟨key, q⟩, hq, h⟩ := bind_eq_ok.1 h
  have := Str.read_length (lift_eq_ok.1 hq)
  dsimp only at h
  split at h
  · obtain ⟨q', hq', h⟩ := bind_eq_ok.1 h
    obtain ⟨q'', hq'', h⟩ := bind_eq_ok.1 h
    cases h
    have := colon_length (lift_eq_ok.1 hq')
    have := Skip.run_length (lift_eq_ok.1 hq'')
    omega
  · split at h
    · cases h
    · obtain ⟨q', hq', h⟩ := bind_eq_ok.1 h
      obtain ⟨⟨c', q''⟩, hq'', h⟩ := bind_eq_ok.1 h
      cases h
      have := colon_length (lift_eq_ok.1 hq')
      have := readField_length hq''
      dsimp only
      omega

/-- Read entries up to the end of the object, from behind the opening
quote of a key. -/
def readEntries (c : Config) (given : List Field) (s : List Char) :
    Except Error (Config × List Char) :=
  match _h : readEntry c given s with
  | .error e => .error e
  | .ok ((c', given'), r) =>
    match _h' : nextKey r with
    | .error flaw => .error (.malformed flaw)
    | .ok (false, r') => .ok (c', r')
    | .ok (true, r') => readEntries c' given' r'
termination_by s.length
decreasing_by
  have := readEntry_length _h
  have := nextKey_length _h'
  omega

/-- Read an object, from behind its opening bracket. -/
def readObject : Reader Config := fun s =>
  match firstKey s with
  | .error flaw => .error (.malformed flaw)
  | .ok (false, r) => .ok ({}, r)
  | .ok (true, r) => readEntries {} [] r

-- ================================================================ arrays

/-- Go on to the next value of an array. The flag is unset if the array
ends instead. -/
def nextElement (isFirst : Bool) : Json.Reader Bool := fun s =>
  match dropBlank s with
  | [] => .error .endInArray
  | c :: r =>
    if c = ']' then .ok (false, r)
    else if isFirst then .ok (true, c :: r)
    else if c = ',' then
      match dropBlank r with
      | [] => .error .endInValue
      | d :: r => if d = ']' then .error .trailingComma else .ok (true, d :: r)
    else .error .noCommaInArray

/-- Read the end of an array in which every field has been given. -/
def closeArray (s : List Char) : Except Flaw (List Char) :=
  match dropBlank s with
  | [] => .error .endInArray
  | c :: r =>
    if c = ']' then .ok r
    else if c = ',' then
      match dropBlank r with
      | ']' :: _ => .error .trailingComma
      | _ => .error .trailingCharacters
    else .error .trailingCharacters

/-- Read the values of the fields that are left, up to the end of the
array. -/
def readElements (isFirst : Bool) (c : Config) : List Field → Reader Config
  | [], s => (lift (closeArray s)).map (c, ·)
  | f :: fields, s =>
    match nextElement isFirst s with
    | .error flaw => .error (.malformed flaw)
    | .ok (false, r) => .ok (c, r)
    | .ok (true, r) =>
      match readField f c r with
      | .error e => .error e
      | .ok (c', r') => readElements false c' fields r'

/-- Read an array, from behind its opening bracket. -/
def readArray : Reader Config := readElements true {} Field.all

-- ============================================================= documents

/-- Read a configuration off the front of a text. -/
def readConfig : Reader Config := fun s =>
  match dropBlank s with
  | [] => .error (.malformed .endInValue)
  | c :: r =>
    if c = '{' then readObject r
    else if c = '[' then readArray r
    else .error (mismatch .config c r)

/-- Read a text that is a configuration and nothing else. -/
def ofChars (s : List Char) : Except Error Config := do
  let (c, r) ← readConfig s
  match dropBlank r with
  | [] => return c
  | _ :: _ => throw (.malformed .trailingCharacters)

/-- The configuration that a JSON text means. -/
def ofJson (text : String) : Except Error Config := ofChars text.toList

end Chip8.Config
