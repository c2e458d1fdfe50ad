/-
Strings. A string is taken apart one character at a time, escaped or
not, up to its closing quote. Two ways of doing so stand side by side:

- `read` gives the characters back. A character outside the basic plane
  is escaped as two surrogates, and neither may come alone.
- `skip` only looks for the end. It wants every escape to be one, but a
  `\u` followed by four hexadecimal digits is one whatever they are.

Both start after the opening quote and end after the closing one.
-/
import Chip8.Json.Space

namespace Chip8.Json.Str

-- ============================================================== escapes

/-- The value of a hexadecimal digit of either case. -/
def hexValue? (c : Char) : Option Nat :=
  if c.isDigit then some (c.toNat - '0'.toNat)
  else if 'a' ≤ c ∧ c ≤ 'f' then some (c.toNat - 'a'.toNat + 10)
  else if 'A' ≤ c ∧ c ≤ 'F' then some (c.toNat - 'A'.toNat + 10)
  else none

/-- The number that four hexadecimal digits spell. -/
def hex4? (a b c d : Char) : Option Nat := do
  let a ← hexValue? a
  let b ← hexValue? b
  let c ← hexValue? c
  let d ← hexValue? d
  return a * 4096 + b * 256 + c * 16 + d

/-- How many bytes a text takes up in UTF-8. -/
def byteLength (s : List Char) : Nat := s.foldl (fun n c => n + c.utf8Size) 0

/-- Take four hexadecimal digits. The text has ended too early if fewer
than four bytes of it are left, whatever they are. -/
def hex4 : Reader Nat
  | a :: b :: c :: d :: r =>
    match hex4? a b c d with
    | some n => .ok (n, r)
    | none => .error .badEscape
  | s => if byteLength s < 4 then .error .endInString else .error .badEscape

/-- The character that a backslash and a letter stand for. -/
def escaped? : Char → Option Char
  | '"' => some '"'
  | '\\' => some '\\'
  | '/' => some '/'
  | 'b' => some '\x08'
  | 'f' => some '\x0c'
  | 'n' => some '\n'
  | 'r' => some '\r'
  | 't' => some '\t'
  | _ => none

/-- Whether a number is the first half of a surrogate pair. -/
def isLeading (n : Nat) : Bool := 0xD800 ≤ n && n < 0xDC00

/-- Whether a number is the second half of a surrogate pair. -/
def isTrailing (n : Nat) : Bool := 0xDC00 ≤ n && n < 0xE000

/-- Take the other half of a pair, and give back the character that the
pair stands for. -/
def secondHalf (first : Nat) : Reader Char
  | [] => .error .endInString
  | '\\' :: [] => .error .endInString
  | '\\' :: 'u' :: r =>
    match hex4 r with
    | .error e => .error e
    | .ok (n, r) =>
      if isTrailing n then
        .ok (Char.ofNat (0x10000 + (first - 0xD800) * 1024 + (n - 0xDC00)), r)
      else .error .loneSurrogate
  | _ => .error .brokenPair

/-- Take what follows `\u`. -/
def codePoint (s : List Char) : Except Flaw (Char × List Char) :=
  match hex4 s with
  | .error e => .error e
  | .ok (n, r) =>
    if isTrailing n then .error .loneSurrogate
    else if isLeading n then secondHalf n r
    else .ok (Char.ofNat n, r)

/-- Take what follows a backslash. -/
def escape : Reader Char
  | [] => .error .endInString
  | c :: r =>
    if c = 'u' then codePoint r
    else match escaped? c with
      | some d => .ok (d, r)
      | none => .error .badEscape

/-- Pass over what follows a backslash. -/
def skipEscape : List Char → Except Flaw (List Char)
  | [] => .error .endInString
  | c :: r =>
    if c = 'u' then (hex4 r).map (·.2)
    else if (escaped? c).isSome then .ok r else .error .badEscape

-- =========================================================== characters

/-- Whether a character may not stand in a string as it is. -/
def isControl (c : Char) : Bool := c.toNat < 0x20

/-- Take one character of a string, or its closing quote. -/
def next : Reader (Option Char)
  | [] => .error .endInString
  | c :: r =>
    if c = '"' then .ok (none, r)
    else if c = '\\' then (escape r).map fun (d, r) => (some d, r)
    else if isControl c then .error .controlCharacter
    else .ok (some c, r)

/-- Pass over one character of a string, or its closing quote; the flag
tells whether the string goes on. -/
def skipNext : Reader Bool
  | [] => .error .endInString
  | c :: r =>
    if c = '"' then .ok (false, r)
    else if c = '\\' then (skipEscape r).map fun r => (true, r)
    else if isControl c then .error .controlCharacter
    else .ok (true, r)

-- =============================================================== length

theorem hex4_length {s r : List Char} {n : Nat} (h : hex4 s = .ok (n, r)) :
    r.length < s.length := by
  unfold hex4 at h
  split at h
  · split at h
    · cases h
      simp only [List.length_cons]
      omega
    · cases h
  · split at h <;> cases h

theorem secondHalf_length {s r : List Char} {n : Nat} {c : Char}
    (h : secondHalf n s = .ok (c, r)) : r.length < s.length := by
  unfold secondHalf at h
  split at h
  · cases h
  · cases h
  · split at h
    · cases h
    · next hq =>
      split at h
      · have := hex4_length hq
        simp only [Except.ok.injEq, Prod.mk.injEq] at h
        simp only [List.length_cons, ← h.2]
        omega
      · cases h
  · cases h

theorem codePoint_length {s r : List Char} {c : Char} (h : codePoint s = .ok (c, r)) :
    r.length < s.length := by
  unfold codePoint at h
  split at h
  · cases h
  · next hq =>
    have := hex4_length hq
    split at h
    · cases h
    · split at h
      · have := secondHalf_length h
        omega
      · cases h
        omega

/-- An escape takes the character behind its backslash. -/
theorem escape_length {s r : List Char} {c : Char} (h : escape s = .ok (c, r)) :
    r.length < s.length := by
  unfold escape at h
  split at h
  · cases h
  · split at h
    · have := codePoint_length h
      simp only [List.length_cons]
      omega
    · split at h <;> cases h
      simp

theorem skipEscape_length {s r : List Char} (h : skipEscape s = .ok r) :
    r.length < s.length := by
  unfold skipEscape at h
  split at h
  · cases h
  · next t =>
    split at h
    · cases hx : hex4 t with
      | error e => simp [hx, Except.map] at h
      | ok q =>
        have := hex4_length hx
        simp only [hx, Except.map, Except.ok.injEq] at h
        simp only [List.length_cons, ← h]
        omega
    · split at h <;> cases h
      simp

/-- A step inside a string takes a character: one of the string, or the
quote that closes it. -/
theorem next_length {s r : List Char} {c : Option Char} (h : next s = .ok (c, r)) :
    r.length < s.length := by
  unfold next at h
  split at h
  · cases h
  · next t =>
    split at h
    · cases h; simp
    · split at h
      · cases hx : escape t with
        | error e => simp [hx, Except.map] at h
        | ok q =>
          have := escape_length hx
          simp only [hx, Except.map, Except.ok.injEq, Prod.mk.injEq] at h
          simp only [List.length_cons, ← h.2]
          omega
      · split at h <;> cases h
        simp

theorem skipNext_length {s r : List Char} {b : Bool} (h : skipNext s = .ok (b, r)) :
    r.length < s.length := by
  unfold skipNext at h
  split at h
  · cases h
  · next t =>
    split at h
    · cases h; simp
    · split at h
      · cases hx : skipEscape t with
        | error e => simp [hx, Except.map] at h
        | ok q =>
          have := skipEscape_length hx
          simp only [hx, Except.map, Except.ok.injEq, Prod.mk.injEq] at h
          simp only [List.length_cons, ← h.2]
          omega
      · split at h <;> cases h
        simp

-- ============================================================== strings

/-- Take the characters up to the closing quote, behind those of `done`,
which are kept in reverse. -/
def readOnto (done : List Char) (s : List Char) : Except Flaw (List Char × List Char) :=
  match _h : next s with
  | .error e => .error e
  | .ok (none, r) => .ok (done.reverse, r)
  | .ok (some c, r) => readOnto (c :: done) r
termination_by s.length
decreasing_by exact next_length _h

/-- Take the characters of a string, up to its closing quote. -/
def read : Reader (List Char) := readOnto []

/-- Pass over a string, up to its closing quote. -/
def skip (s : List Char) : Except Flaw (List Char) :=
  match _h : skipNext s with
  | .error e => .error e
  | .ok (false, r) => .ok r
  | .ok (true, r) => skip r
termination_by s.length
decreasing_by exact skipNext_length _h

/-- The rest of a string takes the closing quote at least. -/
theorem readOnto_length {done s r cs : List Char} (h : readOnto done s = .ok (cs, r)) :
    r.length < s.length := by
  fun_induction readOnto done s with
  | case1 => cases h
  | case2 done s r' hn =>
    cases h
    exact next_length hn
  | case3 done s c r' hn ih =>
    have := next_length hn
    have := ih h
    omega

/-- A string takes its closing quote at least. -/
theorem read_length {s r cs : List Char} (h : read s = .ok (cs, r)) : r.length < s.length :=
  readOnto_length h

theorem skip_length {s r : List Char} (h : skip s = .ok r) : r.length < s.length := by
  fun_induction skip s with
  | case1 => cases h
  | case2 s r' hn =>
    cases h
    exact skipNext_length hn
  | case3 s r' hn ih =>
    have := skipNext_length hn
    have := ih h
    omega

end Chip8.Json.Str
