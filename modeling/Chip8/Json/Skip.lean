/-
Passing over a value that nobody asked for. It must be JSON in form, but
its numbers may be of any size, its strings may hold any escapes, and it
may be nested to any depth.

The arrays and objects that are open around a place in the text are a
list of frames, innermost first, and the text is passed over from one
place where a value must start to the next: `enter` takes a value's
first token and goes on to the next such place, closing the frames that
end on the way, and `skip` repeats it until no frame is left open. Each
such stride takes at least one character, so the depth of the nesting
costs a frame per level and nothing else.
-/
import Chip8.Json.Number
import Chip8.Json.Str

namespace Chip8.Json

/-- An array or an object that has been opened and not yet closed. -/
inductive Frame where
  | array
  | object
  deriving DecidableEq

/-- Take the colon after a key. -/
def colon (s : List Char) : Except Flaw (List Char) :=
  match dropBlank s with
  | [] => .error .endInObject
  | c :: r => if c = ':' then .ok r else .error .noColon

theorem colon_length {s r : List Char} (h : colon s = .ok r) : r.length < s.length := by
  have hs := dropBlank_length_le s
  unfold colon at h
  split at h
  · cases h
  · next hd =>
    split at h <;> cases h
    simp only [hd, List.length_cons] at hs
    omega

/-- Whether a number starts with a character. -/
def startsNumber (c : Char) : Bool := c == '-' || c.isDigit

namespace Skip

/-- Pass over a key and its colon. -/
def key (s : List Char) : Except Flaw (List Char) :=
  match dropBlank s with
  | [] => .error .endInObject
  | c :: r => if c = '"' then (Str.skip r).bind colon else .error .keyNotString

/-- Go on behind a value to where the next one must start, closing the
frames that end before. With no frame left open there is none. -/
def leave : List Frame → List Char → Except Flaw (List Frame × List Char)
  | [], s => .ok ([], s)
  | .array :: frames, s =>
    match dropBlank s with
    | [] => .error .endInArray
    | c :: r =>
      if c = ',' then .ok (.array :: frames, r)
      else if c = ']' then leave frames r
      else .error .noCommaInArray
  | .object :: frames, s =>
    match dropBlank s with
    | [] => .error .endInObject
    | c :: r =>
      if c = ',' then (key r).map fun r => (.object :: frames, r)
      else if c = '}' then leave frames r
      else .error .noCommaInObject

/-- Pass over a value that is neither an array nor an object, of which
`c` is the first character. -/
def scalar (c : Char) (r : List Char) : Except Flaw (List Char) :=
  if c = '"' then Str.skip r
  else if startsNumber c then (Number.scan .badNumber (c :: r)).map (·.2)
  else if c = 'n' then literal ['u', 'l', 'l'] r
  else if c = 't' then literal ['r', 'u', 'e'] r
  else if c = 'f' then literal ['a', 'l', 's', 'e'] r
  else .error .noValue

/-- Go on from where a value must start to where the next one must. -/
def enter (frames : List Frame) (s : List Char) : Except Flaw (List Frame × List Char) :=
  match dropBlank s with
  | [] => .error .endInValue
  | c :: r =>
    if c = '[' then
      match dropBlank r with
      | [] => .error .endInArray
      | d :: r' => if d = ']' then leave frames r' else .ok (.array :: frames, r)
    else if c = '{' then
      match dropBlank r with
      | [] => .error .endInObject
      | d :: r' =>
        if d = '}' then leave frames r' else (key r).map fun r => (.object :: frames, r)
    else (scalar c r).bind (leave frames)

-- =============================================================== length

theorem key_length {s r : List Char} (h : key s = .ok r) : r.length < s.length := by
  have hs := dropBlank_length_le s
  unfold key at h
  split at h
  · cases h
  · next t hd =>
    split at h
    · cases hx : Str.skip t with
      | error e => simp [hx, Except.bind] at h
      | ok q =>
        have := Str.skip_length hx
        have hc : colon q = .ok r := by simpa [hx, Except.bind] using h
        have := colon_length hc
        simp only [hd, List.length_cons] at hs
        omega
    · cases h

/-- Leaving the frames that close here gives no characters back. -/
theorem leave_length {frames frames' : List Frame} {s r : List Char}
    (h : leave frames s = .ok (frames', r)) : r.length ≤ s.length := by
  induction frames generalizing s with
  | nil => cases h; exact Nat.le_refl _
  | cons f frames ih =>
    have hs := dropBlank_length_le s
    cases f with
    | array =>
      simp only [leave] at h
      split at h
      · cases h
      · next hd =>
        simp only [hd, List.length_cons] at hs
        split at h
        · cases h
          omega
        · split at h
          · have := ih h
            omega
          · cases h
    | object =>
      simp only [leave] at h
      split at h
      · cases h
      · next t hd =>
        simp only [hd, List.length_cons] at hs
        split at h
        · cases hk : key t with
          | error e => simp [hk, Except.map] at h
          | ok q =>
            have := key_length hk
            simp only [hk, Except.map, Except.ok.injEq, Prod.mk.injEq] at h
            rw [← h.2]
            omega
        · split at h
          · have := ih h
            omega
          · cases h

/-- A scalar may end with its first character, and leaves no more than what
stood behind that one. -/
theorem scalar_length {c : Char} {s r : List Char} (h : scalar c s = .ok r) :
    r.length ≤ s.length := by
  unfold scalar at h
  split at h
  · exact Nat.le_of_lt (Str.skip_length h)
  · split at h
    · cases hx : Number.scan .badNumber (c :: s) with
      | error e => simp [hx, Except.map] at h
      | ok q =>
        have := Number.scan_length hx
        simp only [hx, Except.map, Except.ok.injEq] at h
        simp only [List.length_cons] at this
        rw [← h]
        omega
    · split at h
      · have := literal_length h
        omega
      · split at h
        · have := literal_length h
          omega
        · split at h
          · have := literal_length h
            omega
          · cases h

/-- A stride takes at least one character. -/
theorem enter_length {frames frames' : List Frame} {s r : List Char}
    (h : enter frames s = .ok (frames', r)) : r.length < s.length := by
  have hs := dropBlank_length_le s
  unfold enter at h
  split at h
  · cases h
  · next c t hd =>
    have ht := dropBlank_length_le t
    simp only [hd, List.length_cons] at hs
    split at h
    · split at h
      · cases h
      · next hd' =>
        simp only [hd', List.length_cons] at ht
        split at h
        · have := leave_length h
          omega
        · cases h
          omega
    · split at h
      · split at h
        · cases h
        · next hd' =>
          simp only [hd', List.length_cons] at ht
          split at h
          · have := leave_length h
            omega
          · cases hk : key t with
            | error e => simp [hk, Except.map] at h
            | ok q =>
              have := key_length hk
              simp only [hk, Except.map, Except.ok.injEq, Prod.mk.injEq] at h
              rw [← h.2]
              omega
      · cases hx : scalar c t with
        | error e => simp [hx, Except.bind] at h
        | ok q =>
          have := scalar_length hx
          have hl : leave frames q = .ok (frames', r) := by simpa [hx, Except.bind] using h
          have := leave_length hl
          omega

-- =============================================================== values

/-- Pass over a value, and over what is left of the arrays and objects
that are open around it. -/
def run (frames : List Frame) (s : List Char) : Except Flaw (List Char) :=
  match _h : enter frames s with
  | .error e => .error e
  | .ok ([], r) => .ok r
  | .ok (f :: frames', r) => run (f :: frames') r
termination_by s.length
decreasing_by exact enter_length _h

/-- A value to be skipped, however deep, takes a character at least. -/
theorem run_length {frames : List Frame} {s r : List Char} (h : run frames s = .ok r) :
    r.length < s.length := by
  fun_induction run frames s with
  | case1 => cases h
  | case2 frames s r' he =>
    cases h
    exact enter_length he
  | case3 frames s f frames' r' he ih =>
    have := enter_length he
    have := ih h
    omega

end Skip

/-- Pass over one value. -/
def skipValue (s : List Char) : Except Flaw (List Char) := Skip.run [] s

end Chip8.Json
